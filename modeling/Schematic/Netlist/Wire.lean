import Schematic.Json.Reader
import Schematic.Netlist.Basic

namespace Schematic

open Json (Document)
open Json.Document (required? defaulted?)

namespace Port

def fieldNames : List String := ["name", "type", "array", "elementOf"]

def decode? (d : Document) : Option Port := do
  match ← d.record? fieldNames with
  | [name, type, array, slotOf] =>
    return {
      name := ← required? Document.string? name
      type := ← required? Document.string? type
      isArray := ← required? Document.bool? array
      slotOf := ← defaulted? none (Document.optional? Document.index?) slotOf }
  | _ => none

def encode (p : Port) : Json :=
  .object [
    ("name", .string p.name),
    ("type", .string p.type),
    ("array", .bool p.isArray),
    ("elementOf", Json.orNull (p.slotOf.map Json.nat))]

end Port

namespace Argument

def fieldNames : List String := ["name", "type", "default_value", "value"]

/-- Decodes an argument whose values may nest `depth` arrays and objects. -/
def decode? (depth : Nat) (d : Document) : Option Argument := do
  match ← d.record? fieldNames with
  | [name, kind, default, value] =>
    return {
      name := ← required? Document.string? name
      kind := .ofName (← required? Document.string? kind)
      default := ← defaulted? none (Document.optional? (Document.value? depth)) default
      value := ← defaulted? none (Document.optional? (Document.value? depth)) value }
  | _ => none

def encode (a : Argument) : Json :=
  .object [
    ("name", .string a.name),
    ("type", .string a.kind.name),
    ("default_value", Json.orNull a.default),
    ("value", Json.orNull a.value)]

end Argument

namespace Component

def dataNames : List String := ["name", "type", "superClasses", "ports", "argParams"]

def fieldNames : List String := ["id", "data"]

/-- Decodes the data of a component with the given id. -/
def decodeData? (depth : Nat) (id : String) (d : Document) : Option Component := do
  match ← d.record? dataNames with
  | [name, type, superClasses, ports, arguments] =>
    return {
      id
      name := ← required? Document.string? name
      type := ← required? Document.string? type
      superClasses := ← defaulted? [] Document.strings? superClasses
      ports := ← required? (Document.list? Port.decode?) ports
      arguments := ← defaulted? [] (Document.list? (Argument.decode? depth)) arguments }
  | _ => none

def decode? (depth : Nat) (d : Document) : Option Component := do
  match ← d.record? fieldNames with
  | [id, data] =>
    let id ← defaulted? "" Document.string? id
    required? (decodeData? depth id) data
  | _ => none

def encode (c : Component) : Json :=
  .object [
    ("id", .string c.id),
    ("data", .object [
      ("name", .string c.name),
      ("type", .string c.type),
      ("superClasses", Json.strings c.superClasses),
      ("ports", .array (c.ports.map Port.encode)),
      ("argParams", .array (c.arguments.map Argument.encode))])]

end Component

namespace Netlist

namespace Label

def fieldNames : List String := ["labelName", "nodeId", "portIdx"]

def decode? (d : Document) : Option Netlist.Label := do
  match ← d.record? fieldNames with
  | [name, node, port] =>
    return {
      name := ← required? Document.string? name
      node := ← required? Document.string? node
      port := ← required? Document.index? port }
  | _ => none

def encode (l : Netlist.Label) : Json :=
  .object [("labelName", .string l.name), ("nodeId", .string l.node), ("portIdx", Json.nat l.port)]

end Label

/-- How many arrays and objects stand around the value of an argument. -/
def argumentNesting : Nat := 7

/-- Decodes the components of a netlist, which stand in a record of their own. -/
def decodeNodes? (d : Document) : Option (List (String × Component)) := do
  match ← d.record? ["nodes"] with
  | [nodes] =>
    required? (Document.table? (Component.decode? (Json.maxDepth - argumentNesting))) nodes
  | _ => none

def decode? (d : Document) : Option Netlist := do
  match ← d.record? ["graph", "labels"] with
  | [graph, labels] =>
    return {
      nodes := ← required? decodeNodes? graph
      labels := ← defaulted? [] (Document.table? Label.decode?) labels }
  | _ => none

def encode (n : Netlist) : Json :=
  .object [
    ("graph", .object [("nodes", .object (n.nodes.map fun (k, c) => (k, c.encode)))]),
    ("labels", .object (n.labels.map fun (k, l) => (k, l.encode)))]

/-- Reads the text of a netlist. -/
def read? (text : String) : Option Netlist := do
  decode? (← Document.read? text)

end Netlist

end Schematic
