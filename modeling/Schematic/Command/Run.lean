import Schematic.Circuit.Listing
import Schematic.Command.Disk
import Schematic.Command.Options
import Schematic.Lowering
import Schematic.Provenance

namespace Schematic

namespace Command

/-- Why a run ends without output. -/
inductive Failure where
  /-- A file cannot be read or written. -/
  | file (path : String) (fault : FileFault)
  | library (path : String)
  | registry (defect : Registry.Defect)
  | lowering (problem : Problem)
  | pipeline (stop : Stop)

namespace Failure

/-- What is told. The reader's own words for a malformed text are given. -/
def message (malformed : String) : Failure → String
  | file path fault => path ++ ": " ++ fault.text
  | library path => path ++ ": " ++ malformed
  | registry defect => "invalid registry: " ++ defect.message
  | lowering .format => "format error: " ++ malformed
  | lowering problem => problem.text
  | pipeline stop => stop.text

/-- Two for what was given to the run, one for the netlist. -/
def code : Failure → Nat
  | file .. => 2
  | library .. => 2
  | registry .. => 2
  | lowering .. => 1
  | pipeline .. => 1

end Failure

/-- The text of a run and the code to end with. -/
structure Output where
  text : String
  code : Nat
deriving DecidableEq, Repr

/-- The registry of a run: the library if one is named. -/
def loadRegistry (read : String → Except FileFault String) : Option String → Except Failure Registry
  | none => .ok .builtin
  | some path =>
    match read path with
    | .error fault => .error (.file path fault)
    | .ok text =>
      match Registry.load text with
      | .ok registry => .ok registry
      | .error .malformed => .error (.library path)
      | .error (.invalid defect) => .error (.registry defect)

/-- The output of a listing; what was not made is listed as nothing. -/
def listed : Option (Except Fault String) → Except Failure Output
  | none => .ok ⟨"", 0⟩
  | some (.ok text) => .ok ⟨text, 0⟩
  | some (.error fault) => .error (.lowering fault.problem)

/-- The output of a stage for a source text. -/
def produce (c : Command) (registry : Registry) (text : String) : Except Failure Output :=
  match c.stage with
  | .hdl =>
    match lowerText registry c.header text with
    | .ok emitted => .ok ⟨emitted, 0⟩
    | .error problem => .error (.lowering problem)
  | .result =>
    let report := respond registry c.header text
    .ok ⟨report.encode.pretty ++ "\n", if report.isOk then 0 else 1⟩
  | .graph =>
    match Netlist.read? text with
    | none => .error (.lowering .format)
    | some netlist =>
      let r := (Workspace.new registry netlist).run c.header .buildGraph
      match r.result with
      | .error stop => .error (.pipeline stop)
      | .ok () => listed (r.workspace.circuit.map (·.listing))
  | .connections =>
    match Netlist.read? text with
    | none => .error (.lowering .format)
    | some netlist =>
      let r := (Workspace.new registry netlist).run c.header .aggregate
      match r.result with
      | .error stop => .error (.pipeline stop)
      | .ok () => listed (do return (← r.workspace.connections).listing (← r.workspace.circuit))
  | .buildInfo =>
    let emitted := (lowerText registry c.header text).toOption
    .ok ⟨(Provenance.of text registry emitted).text, 0⟩

/-- Whether the source is the standard input: a dash, of which slashes and single dots after it make
no other path. -/
def readsStdin (path : String) : Bool :=
  path.toList.head? == some '-' && (Disk.parts path).filter (· ≠ ".") == ["-"]

/-- A run up to its output, given how the library reads and what the source reads as. A library that
cannot be loaded is told before a source that cannot be read. -/
def evaluate (c : Command) (readLibrary : String → Except FileFault String)
    (source : Except FileFault String) : Except Failure Output := do
  let registry ← loadRegistry readLibrary c.library
  match source with
  | .error fault => throw (.file c.source fault)
  | .ok text => c.produce registry text

/-- What a run leaves. -/
structure Outcome where
  code : Nat
  stdout : String
  stderr : String
  disk : Disk

/-- The name that messages start with. -/
def programName : String := "nwc"

/-- A failure leaves nothing but its message. -/
def fail (malformed : String) (disk : Disk) (failure : Failure) : Outcome :=
  ⟨failure.code, "", programName ++ ": " ++ failure.message malformed ++ "\n", disk⟩

/-- Runs a command on a disk. -/
def execute (c : Command) (malformed : String) (disk : Disk) (stdin : ByteArray) : Outcome :=
  let source := if readsStdin c.source then textOf stdin else disk.readText c.source
  match c.evaluate disk.readText source with
  | .error failure => fail malformed disk failure
  | .ok output =>
    match c.output with
    | none => ⟨output.code, output.text, "", disk⟩
    | some path =>
      match disk.write path output.text.toUTF8 with
      | .error fault => fail malformed disk (.file path fault)
      | .ok disk => ⟨output.code, "", "", disk⟩

def versionText : String :=
  programName ++ " " ++ version ++ "\n"

/-- Runs the program on the files of a disk. -/
def onDisk (malformed : String) (arguments : List String) (disk : Disk) (stdin : ByteArray) :
    Outcome :=
  match parse arguments with
  | .misuse => ⟨2, "", "", disk⟩
  | .version => ⟨0, versionText, "", disk⟩
  | .run c => c.execute malformed disk stdin

end Command

end Schematic
