import Schematic.Netlist.Basic

namespace Schematic

/-- Buses that need a support block. -/
inductive BusKind where
  | i2c
deriving DecidableEq, Repr

def BusKind.name : BusKind → String
  | i2c => "i2c"

/-- What a component is in the circuit, apart from being a block. -/
inductive Role where
  /-- A connector whose pins take their types from what they are wired to. -/
  | connector
  /-- The support block of a bus. -/
  | support (bus : BusKind)
  | plain
deriving DecidableEq, Repr

/-- A pin that is wired to accepted types only is exposed as the given type. -/
structure AdaptRule where
  accepts : List String
  exposes : String
deriving DecidableEq, Repr

/-- The rule needs some type, and accepts all of them. -/
def AdaptRule.covers (rule : AdaptRule) (types : List String) : Bool :=
  !types.isEmpty && types.all rule.accepts.contains

/-- How a bus is told by the types of its ports, and how its support block is named and wired. -/
structure BusRule where
  kind : BusKind
  controllerTypes : List String
  targetTypes : List String
  supportClass : String
  supportBusPort : String
  supportPowerPort : String
  /-- The power ports to look for on a controller, in order of preference. -/
  controllerPowerPorts : List String
  /-- The support block is named by this and the name of the bus connection. -/
  supportStem : String
deriving DecidableEq, Repr

namespace BusRule

def isController (rule : BusRule) (type : String) : Bool :=
  rule.controllerTypes.contains type

def isTarget (rule : BusRule) (type : String) : Bool :=
  rule.targetTypes.contains type

end BusRule

structure Registry where
  connectorClasses : List String
  adaptRules : List AdaptRule
  buses : List BusRule
deriving DecidableEq, Repr

namespace Registry

def builtin : Registry where
  connectorClasses := ["PassiveConnector"]
  adaptRules := [
    ⟨["VoltageSink"], "VoltageSource"⟩,
    ⟨["VoltageSource", "VoltageSink"], "VoltageSink"⟩,
    ⟨["DigitalSource", "DigitalSink", "DigitalBidir"], "DigitalBidir"⟩,
    ⟨["AnalogSink"], "AnalogSource"⟩,
    ⟨["AnalogSource", "AnalogSink"], "AnalogSink"⟩,
    ⟨["Ground", "GroundReference"], "Ground"⟩]
  buses := [{
    kind := .i2c
    controllerTypes := ["I2cController"]
    targetTypes := ["I2cTarget"]
    supportClass := "I2cPullup"
    supportBusPort := "i2c"
    supportPowerPort := "pwr"
    controllerPowerPorts := ["pwr", "pwr_out"]
    supportStem := "_implicit_i2c_pullup_" }]

/-- The role of a component with the given type and superclasses. A connector class goes before a
support class, and the first bus before a later one. -/
def roleOf (r : Registry) (type : String) (superClasses : List String) : Role :=
  let isA (name : String) : Bool := type == name || superClasses.contains name
  if r.connectorClasses.any isA then .connector
  else
    match r.buses.find? fun bus => isA bus.supportClass with
    | some bus => .support bus.kind
    | none => .plain

/-- The first rule that covers the types. -/
def adapter? (r : Registry) (types : List String) : Option AdaptRule :=
  r.adaptRules.find? (·.covers types)

/-- Why a registry is refused. -/
inductive Defect where
  | acceptsNothing (rule : Nat)
  | exposesNothing (rule : Nat)
  | emptyStem (bus : BusKind)
deriving DecidableEq, Repr

def ruleDefect? (rule : AdaptRule) (i : Nat) : Option Defect :=
  if rule.accepts.isEmpty then some (.acceptsNothing i)
  else if rule.exposes.isEmpty then some (.exposesNothing i)
  else none

def busDefect? (bus : BusRule) : Option Defect :=
  if bus.supportStem.isEmpty then some (.emptyStem bus.kind) else none

/-- The first defect, rules before buses. -/
def defect? (r : Registry) : Option Defect :=
  (r.adaptRules.zipIdx.findSome? fun (rule, i) => ruleDefect? rule i).or
    (r.buses.findSome? busDefect?)

def Defect.message : Defect → String
  | acceptsNothing i => "adapt rule " ++ Decimal.natural i ++ " accepts no types"
  | exposesNothing i => "adapt rule " ++ Decimal.natural i ++ " exposes no type"
  | emptyStem bus => "bus '" ++ bus.name ++ "' has an empty implicit name prefix"

end Registry

end Schematic
