import Schematic.Declaration.Basic

namespace Schematic

/-- What a run writes. -/
inductive Stage where
  | hdl
  | result
  | graph
  | connections
  | buildInfo
deriving DecidableEq, Repr

def Stage.ofName? : String → Option Stage
  | "hdl" => some hdl
  | "result" => some result
  | "graph" => some graph
  | "connections" => some connections
  | "build-info" => some buildInfo
  | _ => none

structure Command where
  source : String
  output : Option String := none
  stage : Stage := .hdl
  library : Option String := none
  header : ModuleHeader := {}
  verbose : Bool := false
deriving DecidableEq, Repr

namespace Command

/-- What the arguments ask for. -/
inductive Request where
  | run (c : Command)
  | version
  | misuse
deriving DecidableEq, Repr

/-- The options that take a value. -/
inductive Setting where
  | output
  | emit
  | library
  | moduleName
  | moduleBase
deriving DecidableEq, Repr

def Setting.ofName? : String → Option Setting
  | "output" => some output
  | "emit" => some emit
  | "library" => some library
  | "module-name" => some moduleName
  | "module-base" => some moduleBase
  | _ => none

/-- What has been given so far. -/
structure Draft where
  source : Option String := none
  output : Option String := none
  stage : Option Stage := none
  library : Option String := none
  moduleName : Option String := none
  moduleBase : Option String := none
  verbose : Bool := false
deriving DecidableEq, Repr

namespace Draft

/-- A path that is not empty, if none was given yet. -/
def path? (given : Option String) (path : String) : Option (Option String) :=
  if given.isSome ∨ path = "" then none else some (some path)

def addSource? (d : Draft) (path : String) : Option Draft := do
  return { d with source := ← path? d.source path }

def set? (d : Draft) (setting : Setting) (value : String) : Option Draft := do
  match setting with
  | .output => return { d with output := ← path? d.output value }
  | .library => return { d with library := ← path? d.library value }
  | .emit =>
    guard d.stage.isNone
    return { d with stage := some (← Stage.ofName? value) }
  | .moduleName =>
    guard d.moduleName.isNone
    return { d with moduleName := some value }
  | .moduleBase =>
    guard d.moduleBase.isNone
    return { d with moduleBase := some value }

/-- The request of complete arguments, which must have named a source. -/
def finish (d : Draft) : Request :=
  match d.source with
  | none => .misuse
  | some source =>
    let defaults : ModuleHeader := {}
    .run {
      source
      output := d.output
      stage := d.stage.getD .hdl
      library := d.library
      header := {
        name := d.moduleName.getD defaults.name
        base := d.moduleBase.getD defaults.base }
      verbose := d.verbose }

end Draft

/-- How one argument is read. -/
inductive Form where
  | source (path : String)
  | setting (s : Setting) (attached : Option String)
  | verbose
  | version
  /-- All that follows are sources. -/
  | separator
  | unknown
deriving DecidableEq, Repr

/-- The part before the first equals sign, and the part after it. -/
def splitEquals (cs : List Char) : String × Option String :=
  let name := String.ofList (cs.takeWhile (· != '='))
  match cs.dropWhile (· != '=') with
  | [] => (name, none)
  | _ :: value => (name, some (String.ofList value))

def longForm (cs : List Char) : Form :=
  let (name, attached) := splitEquals cs
  if name = "verbose" then if attached.isNone then .verbose else .unknown
  else if name = "version" then if attached.isNone then .version else .unknown
  else
    match Setting.ofName? name with
    | some s => .setting s attached
    | none => .unknown

/-- An option of one letter, with its value right behind it or not. -/
def shortForm : List Char → Form
  | 'V' :: _ => .version
  | ['o'] => .setting .output none
  | 'o' :: '=' :: value => .setting .output (some (String.ofList value))
  | 'o' :: value => .setting .output (some (String.ofList value))
  | _ => .unknown

def form (argument : String) : Form :=
  match argument.toList with
  | ['-', '-'] => .separator
  | '-' :: '-' :: rest => longForm rest
  | ['-'] => .source argument
  | '-' :: rest => shortForm rest
  | _ => .source argument

/-- Whether an argument can be the value of the option before it. -/
def isValue (argument : String) : Bool :=
  match form argument with
  | .source _ => true
  | _ => false

/-- After the separator every argument is a source. -/
def sources? (d : Draft) : List String → Option Draft
  | [] => some d
  | a :: rest => do sources? (← d.addSource? a) rest

/-- Goes on with a draft, if there is one. -/
def orMisuse (d : Option Draft) (f : Draft → Request) : Request :=
  match d with
  | some d => f d
  | none => .misuse

def parseFrom (d : Draft) : List String → Request
  | [] => d.finish
  | a :: rest =>
    match form a with
    | .source path => orMisuse (d.addSource? path) fun d => parseFrom d rest
    | .setting s (some value) => orMisuse (d.set? s value) fun d => parseFrom d rest
    | .setting s none =>
      match rest with
      | [] => .misuse
      | value :: rest =>
        if isValue value then orMisuse (d.set? s value) fun d => parseFrom d rest else .misuse
    | .verbose => if d.verbose then .misuse else parseFrom { d with verbose := true } rest
    | .version => .version
    | .separator => orMisuse (sources? d rest) Draft.finish
    | .unknown => .misuse

def parse (arguments : List String) : Request :=
  parseFrom {} arguments

end Command

end Schematic
