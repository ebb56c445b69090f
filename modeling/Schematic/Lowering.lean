import Schematic.Netlist.Wire
import Schematic.Pipeline.Workspace

namespace Schematic

/-- The declarations of a netlist, or the first fault: all passes are run. -/
def Netlist.lower (registry : Registry) (header : ModuleHeader) (netlist : Netlist) :
    Except Fault Declarations :=
  let r := (Workspace.new registry netlist).run header .emit
  match r.result with
  | .error stop => .error stop.fault
  | .ok () =>
    match r.workspace.declarations with
    | some declarations => .ok declarations
    | none => .error (.inputsMissing .emit)

/-- The emitted text of a netlist's text, or the problem that stands in its way. -/
def lowerText (registry : Registry) (header : ModuleHeader) (text : String) :
    Except Problem String :=
  match Netlist.read? text with
  | none => .error .format
  | some netlist =>
    match netlist.lower registry header with
    | .ok declarations => .ok declarations.render
    | .error fault => .error fault.problem

/-- The answer to the editor for a netlist's text. -/
def respond (registry : Registry) (header : ModuleHeader) (text : String) : Report :=
  .ofResult (lowerText registry header text)

end Schematic
