import Schematic.Diagnostic
import Schematic.Netlist.Basic
import Schematic.Pipeline.Pass

namespace Schematic

/-- A cause for which lowering stops, with the element it is about. -/
inductive Fault where
  /-- A label stands on a node that is not there. -/
  | unknownNode (label node : String)
  /-- A label stands on a port that its node does not have. -/
  | unknownPort (label node : String) (port ports : Nat)
  /-- A slot does not belong to a port that is no slot. -/
  | slotParent (node port : String) (parent : Nat)
  /-- Two labels stand on one port. -/
  | duplicateLabel (node port owner label : String)
  /-- A connection joins an array port and a scalar one. -/
  | mixedShape (label : String) (arrayPort scalarPort : List String)
  | pinName (node port : String)
  /-- A connector pin lies on an array connection. -/
  | pinOnArray (node port label : String)
  /-- No rule covers the types that a connector pin is wired to. -/
  | pinTypes (node port : String) (types : List String)
  | blockName (node : String)
  | blockClass (node type : String)
  | argumentName (node argument : String)
  /-- The kind is not supported or does not take the value. -/
  | argumentValue (node argument : String) (kind : ArgumentKind) (value : Json)
  | supportName (label block : String)
  /-- A block with the name of a support block is there already. -/
  | supportTaken (label block : String)
  | portName (node port : String)
  | parentName (node port : String)
  /-- A port reference leads nowhere. -/
  | dangling (node port : Nat)
  /-- There is no connection with the id. -/
  | lostConnection (id : Nat)
  /-- A pass has run before those it needs. -/
  | inputsMissing (pass : Pass)

namespace Fault

/-- A position leads nowhere, which is no fault of the netlist. -/
def isLost : Fault → Bool
  | dangling .. => true
  | lostConnection .. => true
  | _ => false

/-- The diagnostic of a value that its kind does not take. -/
def argumentDiagnostic (node argument : String) (kind : ArgumentKind) (value : Json) : Diagnostic :=
  let path := [node, argument]
  let constraint := some kind.name
  match kind with
  | .int =>
    { code := .e0200, path, constraint, message := "invalid non-int value " ++ value.compact }
  | .float =>
    { code := .e0201, path, constraint, message := "invalid non-float value " ++ value.compact }
  | .range =>
    { code := .e0202, path, constraint, message := "invalid range value " ++ value.compact }
  | .string => { code := .e0203, path, constraint, message := "string arguments are not supported" }
  | .array => { code := .e0204, path, constraint, message := "array arguments are not supported" }
  | .unknown name =>
    { code := .e0205, path, constraint, message := "unknown argument type " ++ name }

/-- How a cause is told. -/
def problem : Fault → Problem
  | unknownNode label node =>
    .invalid {
      code := .e0001
      path := [label]
      message := "label references unknown node " ++ node }
  | unknownPort label node port ports =>
    .invalid {
      code := .e0002
      path := [label]
      message := "label references port " ++ Decimal.natural port ++ " of " ++ node ++
        ", which has " ++ Decimal.natural ports ++ " ports" }
  | slotParent node port parent =>
    .invalid {
      code := .e0003
      path := [node, port]
      message := "array slot refers to invalid parent port " ++ Decimal.natural parent }
  | duplicateLabel node port owner label =>
    .internal ("duplicate label: port " ++ node ++ "." ++ port ++ " is claimed by '" ++ owner ++
      "' and '" ++ label ++ "'")
  | mixedShape label arrayPort scalarPort =>
    .invalid {
      code := .e0300
      path := [label]
      message := "mixed array and non-array ports in label " ++ label
      hint := some (String.intercalate "." arrayPort ++ " is an array port but " ++
        String.intercalate "." scalarPort ++ " is not") }
  | pinName node port =>
    .invalid {
      code := .e0402
      path := [node, port]
      message := "invalid connector pin name"
      hint := some "connector pins are named port_<N>" }
  | pinOnArray node port label =>
    .invalid {
      code := .e0400
      path := [node, port]
      message := "connector pin cannot connect to array label " ++ label }
  | pinTypes node port types =>
    .invalid {
      code := .e0401
      path := [node, port]
      message := "no connector type for connected types \x7b" ++ String.intercalate ", " types ++
        "\x7d" }
  | blockName node =>
    .invalid { code := .e0100, path := [node], message := "invalid block name" }
  | blockClass node type =>
    .invalid { code := .e0101, path := [node], message := "invalid block class " ++ type }
  | argumentName node argument =>
    .invalid { code := .e0104, path := [node, argument], message := "invalid argument name" }
  | argumentValue node argument kind value =>
    .invalid (argumentDiagnostic node argument kind value)
  | supportName label block =>
    .invalid {
      code := .e0105
      path := [label]
      message := "invalid implicit block name " ++ block
      hint := some "rename the label to a valid identifier" }
  | supportTaken label block =>
    .invalid {
      code := .e0106
      path := [label]
      message := "implicit block name " ++ block ++ " is already taken"
      hint := some "rename the block or the label" }
  | portName node port =>
    .invalid { code := .e0102, path := [node, port], message := "invalid port name" }
  | parentName node port =>
    .invalid { code := .e0103, path := [node, port], message := "invalid array port name" }
  | dangling node port =>
    .internal ("no port " ++ Decimal.natural port ++ " of node " ++ Decimal.natural node)
  | lostConnection id =>
    .internal ("no connection " ++ Decimal.natural id)
  | inputsMissing pass =>
    .internal (pass.name ++ " ran before its inputs were built")

end Fault

end Schematic
