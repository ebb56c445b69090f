import Schematic.Json.Basic

namespace Schematic.Json

inductive Document where
  | null
  | bool (b : Bool)
  | number (n : Number)
  | string (s : String)
  | array (items : List Document)
  | object (fields : List (String × Document))
  | unreadable

/-- Sets a key of an association list: a new key goes to the end, a known one keeps its place. -/
def put {α : Type} (entries : List (String × α)) (key : String) (a : α) : List (String × α) :=
  if entries.any (·.1 == key) then entries.map fun e => if e.1 == key then (key, a) else e
  else entries ++ [(key, a)]

/-- The association list of a sequence of entries: each key at its first place with its last
value. -/
def ofEntries {α : Type} (entries : List (String × α)) : List (String × α) :=
  entries.foldl (fun acc e => put acc e.1 e.2) []

/-- How many arrays and objects may be open at once. -/
def maxDepth : Nat := 127

namespace Document

mutual

/-- The value that a document stands for, if all of it is readable and it nests at most `depth`
arrays and objects. -/
def value? (depth : Nat) : Document → Option Json
  | null => some .null
  | bool b => some (.bool b)
  | number n => some (.number n)
  | string s => some (.string s)
  | array items =>
    if depth = 0 then none else do return .array (← values? (depth - 1) items)
  | object fields =>
    if depth = 0 then none else do return .object (ofEntries (← entries? (depth - 1) fields))
  | unreadable => none

def values? (depth : Nat) : List Document → Option (List Json)
  | [] => some []
  | d :: ds => do return (← value? depth d) :: (← values? depth ds)

def entries? (depth : Nat) : List (String × Document) → Option (List (String × Json))
  | [] => some []
  | (k, d) :: rest => do return (k, ← value? depth d) :: (← entries? depth rest)

end

mutual

/-- The document that a value is written as. -/
def ofValue : Json → Document
  | .null => null
  | .bool b => bool b
  | .number n => number n
  | .string s => string s
  | .array items => array (ofValues items)
  | .object fields => object (ofFields fields)

def ofValues : List Json → List Document
  | [] => []
  | j :: js => ofValue j :: ofValues js

def ofFields : List (String × Json) → List (String × Document)
  | [] => []
  | (k, j) :: rest => (k, ofValue j) :: ofFields rest

end

def string? : Document → Option String
  | string s => some s
  | _ => none

def bool? : Document → Option Bool
  | bool b => some b
  | _ => none

/-- A whole number of 32 bits, written without a fraction, an exponent or a sign. -/
def index? : Document → Option Nat
  | number (.integer i) => if 0 ≤ i.val ∧ i.val < 0x100000000 then some i.val.toNat else none
  | _ => none

def list? {α : Type} (item? : Document → Option α) : Document → Option (List α)
  | array items => items.mapM item?
  | _ => none

def strings? : Document → Option (List String) :=
  list? string?

/-- An object read as a table: a repeated key keeps its first place and its last value, but every
entry must be readable. -/
def table? {α : Type} (item? : Document → Option α) : Document → Option (List (String × α))
  | object fields => do
    return ofEntries (← fields.mapM fun (k, d) => return (k, ← item? d))
  | _ => none

/-- Null or a value. -/
def optional? {α : Type} (item? : Document → Option α) : Document → Option (Option α)
  | null => some none
  | d => (item? d).map some

/-- The document of each named field of a record, none where it is missing. A record is an object,
in which other fields are skipped and a named field may stand only once, or the array of its first
fields in order. -/
def record? (names : List String) : Document → Option (List (Option Document))
  | array items =>
    if items.length ≤ names.length then
      some (items.map some ++ List.replicate (names.length - items.length) none)
    else none
  | object fields =>
    if names.all fun name => (fields.countP (·.1 == name)) ≤ 1 then
      some (names.map fun name => fields.lookup name)
    else none
  | _ => none

/-- A field that must be there. -/
def required? {α : Type} (item? : Document → Option α) : Option Document → Option α
  | some d => item? d
  | none => none

/-- A field that may be missing, and then has a default. -/
def defaulted? {α : Type} (default : α) (item? : Document → Option α) : Option Document → Option α
  | some d => item? d
  | none => some default

end Document

end Schematic.Json
