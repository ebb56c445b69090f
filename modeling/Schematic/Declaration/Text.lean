import Schematic.Declaration.Basic

namespace Schematic

namespace Declaration

def Expression.text : Expression → String
  | .port block name => "self." ++ block ++ "." ++ name
  | .request block parent slot =>
    "self." ++ block ++ "." ++ parent ++ ".request('" ++ slot ++ "')"
  | .requestVector block parent slot =>
    "self." ++ block ++ "." ++ parent ++ ".request_vector('" ++ slot ++ "')"

def argumentsText (arguments : List Argument.Written) : String :=
  String.intercalate ", " (arguments.map (·.text))

def Export.text (e : Export) : String :=
  "    self." ++ e.name ++ " = self.Export(self._conn.pins.request('" ++ Decimal.natural e.pin ++
    "').adapt_to(" ++ e.adaptTo ++ "()), optional=True)\n"

/-- The class, and its entry among the global names, by which it is looked up. -/
def Connector.text (c : Connector) : String :=
  "class " ++ c.className ++ "(Block):\n" ++
    "  def __init__(self):\n" ++
    "    super().__init__()\n" ++
    "    self._conn = self.Block(" ++ c.wrappedClass ++ "(" ++ argumentsText c.arguments ++
    "))\n" ++
    String.join (c.exports.map (·.text)) ++
    "\n" ++
    "globals()['__builtins__']['" ++ c.className ++ "'] = " ++ c.className ++ "\n"

def Block.text (b : Block) : String :=
  "    self." ++ b.name ++ " = self.Block(" ++ b.className ++ "(" ++ argumentsText b.arguments ++
    "))\n"

def Connect.text (c : Connect) : String :=
  "    self.connect(" ++ String.intercalate ", " (c.members.map (·.text)) ++ ")\n"

end Declaration

/-- The text of a design: the wrappers, then the module with its blocks and its connects. -/
def Declarations.render (d : Declarations) : String :=
  String.join (d.connectors.map fun c => c.text ++ "\n\n") ++
    "class " ++ d.header.name ++ "(" ++ d.header.base ++ "):\n" ++
    "  def __init__(self):\n" ++
    "    super().__init__()\n" ++
    "\n" ++
    String.join (d.blocks.map (·.text)) ++
    "\n" ++
    String.join (d.connects.map (·.text))

end Schematic
