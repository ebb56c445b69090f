import Schematic.Json.Reader
import Schematic.Registry.Basic

namespace Schematic

open Json (Document)
open Json.Document (required? defaulted?)

/-- A bus is given by its name, or by an object with the name as its only key and null under it. -/
def BusKind.decode? : Document → Option BusKind
  | .string "i2c" => some .i2c
  | .object [("i2c", .null)] => some .i2c
  | _ => none

namespace AdaptRule

def decode? (d : Document) : Option AdaptRule := do
  match ← d.record? ["accepts", "exposes"] with
  | [accepts, exposes] =>
    return {
      accepts := ← required? Document.strings? accepts
      exposes := ← required? Document.string? exposes }
  | _ => none

def encode (r : AdaptRule) : Json :=
  .object [("accepts", Json.strings r.accepts), ("exposes", .string r.exposes)]

end AdaptRule

namespace BusRule

def fieldNames : List String :=
  ["kind", "controller_types", "target_types", "support_class", "support_bus_port",
    "support_power_port", "controller_power_ports", "implicit_name_prefix"]

def decode? (d : Document) : Option BusRule := do
  match ← d.record? fieldNames with
  | [kind, controllers, targets, supportClass, busPort, powerPort, powerPorts, stem] =>
    return {
      kind := ← required? BusKind.decode? kind
      controllerTypes := ← required? Document.strings? controllers
      targetTypes := ← required? Document.strings? targets
      supportClass := ← required? Document.string? supportClass
      supportBusPort := ← required? Document.string? busPort
      supportPowerPort := ← required? Document.string? powerPort
      controllerPowerPorts := ← required? Document.strings? powerPorts
      supportStem := ← required? Document.string? stem }
  | _ => none

def encode (r : BusRule) : Json :=
  .object [
    ("kind", .string r.kind.name),
    ("controller_types", Json.strings r.controllerTypes),
    ("target_types", Json.strings r.targetTypes),
    ("support_class", .string r.supportClass),
    ("support_bus_port", .string r.supportBusPort),
    ("support_power_port", .string r.supportPowerPort),
    ("controller_power_ports", Json.strings r.controllerPowerPorts),
    ("implicit_name_prefix", .string r.supportStem)]

end BusRule

namespace Registry

def fieldNames : List String := ["connector_classes", "adapt_rules", "buses"]

def decode? (d : Document) : Option Registry := do
  match ← d.record? fieldNames with
  | [classes, rules, buses] =>
    return {
      connectorClasses := ← defaulted? builtin.connectorClasses Document.strings? classes
      adaptRules := ← defaulted? builtin.adaptRules (Document.list? AdaptRule.decode?) rules
      buses := ← defaulted? builtin.buses (Document.list? BusRule.decode?) buses }
  | _ => none

def encode (r : Registry) : Json :=
  .object [
    ("connector_classes", Json.strings r.connectorClasses),
    ("adapt_rules", .array (r.adaptRules.map AdaptRule.encode)),
    ("buses", .array (r.buses.map BusRule.encode))]

/-- The one text of a registry, which its fingerprint is taken from. -/
def canonical (r : Registry) : String :=
  r.encode.compact

/-- Why a text is no registry. -/
inductive LoadFault where
  | malformed
  | invalid (defect : Defect)
deriving DecidableEq, Repr

/-- Reads a registry and checks it. -/
def load (text : String) : Except LoadFault Registry :=
  match Document.read? text >>= decode? with
  | none => .error .malformed
  | some r =>
    match r.defect? with
    | some defect => .error (.invalid defect)
    | none => .ok r

end Registry

end Schematic
