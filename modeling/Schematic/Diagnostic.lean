import Schematic.Json.Reader

namespace Schematic

/-- The stable codes of diagnostics. -/
inductive Code where
  | e0001 | e0002 | e0003
  | e0100 | e0101 | e0102 | e0103 | e0104 | e0105 | e0106
  | e0200 | e0201 | e0202 | e0203 | e0204 | e0205
  | e0300
  | e0400 | e0401 | e0402
deriving DecidableEq, Repr

namespace Code

def text : Code → String
  | e0001 => "E0001"
  | e0002 => "E0002"
  | e0003 => "E0003"
  | e0100 => "E0100"
  | e0101 => "E0101"
  | e0102 => "E0102"
  | e0103 => "E0103"
  | e0104 => "E0104"
  | e0105 => "E0105"
  | e0106 => "E0106"
  | e0200 => "E0200"
  | e0201 => "E0201"
  | e0202 => "E0202"
  | e0203 => "E0203"
  | e0204 => "E0204"
  | e0205 => "E0205"
  | e0300 => "E0300"
  | e0400 => "E0400"
  | e0401 => "E0401"
  | e0402 => "E0402"

def all : List Code :=
  [e0001, e0002, e0003, e0100, e0101, e0102, e0103, e0104, e0105, e0106, e0200, e0201, e0202,
    e0203, e0204, e0205, e0300, e0400, e0401, e0402]

def ofText? (s : String) : Option Code :=
  all.find? (·.text == s)

end Code

/-- A rule that an element of the circuit breaks. The path names the element. -/
structure Diagnostic where
  code : Code
  path : List String
  message : String
  constraint : Option String := none
  hint : Option String := none
deriving DecidableEq, Repr

namespace Diagnostic

def location (d : Diagnostic) : String :=
  if d.path.isEmpty then "" else String.intercalate "." d.path ++ ": "

def text (d : Diagnostic) : String :=
  "error[" ++ d.code.text ++ "]: " ++ d.location ++ d.message ++
    match d.hint with
    | some hint => "\n  hint: " ++ hint
    | none => ""

end Diagnostic

/-- One failure as the editor is told of it. -/
structure ErrorRecord where
  path : List String
  kind : String
  name : Option String
  details : String
deriving DecidableEq, Repr

/-- Why there is no result. -/
inductive Problem where
  /-- The text is not a netlist. -/
  | format
  /-- The netlist breaks a rule. -/
  | invalid (d : Diagnostic)
  /-- The netlist cannot come from the editor. -/
  | internal (detail : String)
deriving DecidableEq, Repr

namespace Problem

/-- The message, which for a malformed text is left to whoever read it. -/
def text : Problem → String
  | format => "format error"
  | invalid d => d.text
  | internal detail => "internal error: " ++ detail

def record : Problem → ErrorRecord
  | format => ⟨[], "invalid input", none, "format error"⟩
  | invalid d => ⟨d.path, "invalid input", d.constraint, d.message⟩
  | internal detail => ⟨[], "internal error", none, detail⟩

end Problem

/-- The answer to the editor: the emitted text, or the errors that stood in its way. -/
structure Report where
  emitted : String
  errors : List ErrorRecord
deriving DecidableEq, Repr

namespace Report

def ofResult : Except Problem String → Report
  | .ok text => ⟨text, []⟩
  | .error p => ⟨"", [p.record]⟩

def isOk (r : Report) : Bool :=
  r.errors.isEmpty

end Report

open Json (Document)
open Json.Document (required? defaulted?)

namespace ErrorRecord

def decode? (d : Document) : Option ErrorRecord := do
  match ← d.record? ["path", "kind", "name", "details"] with
  | [path, kind, name, details] =>
    return {
      path := ← required? Document.strings? path
      kind := ← required? Document.string? kind
      name := ← defaulted? none (Document.optional? Document.string?) name
      details := ← required? Document.string? details }
  | _ => none

/-- A missing name is left out. -/
def encode (r : ErrorRecord) : Json :=
  let name := match r.name with
    | some name => [("name", .string name)]
    | none => []
  .object ([("path", Json.strings r.path), ("kind", .string r.kind)] ++ name ++
    [("details", .string r.details)])

end ErrorRecord

namespace Report

def decode? (d : Document) : Option Report := do
  match ← d.record? ["edgHdl", "errors"] with
  | [emitted, errors] =>
    return {
      emitted := ← required? Document.string? emitted
      errors := ← required? (Document.list? ErrorRecord.decode?) errors }
  | _ => none

def encode (r : Report) : Json :=
  .object [("edgHdl", .string r.emitted), ("errors", .array (r.errors.map ErrorRecord.encode))]

end Report

end Schematic
