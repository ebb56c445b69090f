import Schematic.Json.Number
import Schematic.Json.Quoted

namespace Schematic

inductive Json where
  | null
  | bool (b : Bool)
  | number (n : Json.Number)
  | string (s : String)
  | array (items : List Json)
  | object (fields : List (String × Json))

namespace Json

/-- A string between its quotes. -/
def quote (s : String) : List Char :=
  '"' :: (Quoted.encode s.toList ++ ['"'])

/-- The blanks of a text: before each item, each field and each closing bracket, by its level, and
after a colon. -/
structure Layout where
  gap : Nat → List Char
  afterColon : List Char

/-- The layout without any blanks. -/
def Layout.dense : Layout where
  gap _ := []
  afterColon := []

mutual

/-- The text of a value that stands at a level. Empty arrays and objects have no gap. -/
def chars (layout : Layout) (level : Nat) : Json → List Char
  | null => "null".toList
  | bool true => "true".toList
  | bool false => "false".toList
  | number n => n.text.toList
  | string s => quote s
  | array [] => ['[', ']']
  | array (x :: xs) =>
    '[' :: (layout.gap (level + 1) ++ chars layout (level + 1) x ++
      itemsChars layout (level + 1) xs ++ layout.gap level ++ [']'])
  | object [] => ['\x7b', '\x7d']
  | object ((k, x) :: rest) =>
    '\x7b' :: (layout.gap (level + 1) ++ quote k ++ ':' :: (layout.afterColon ++
      chars layout (level + 1) x ++ fieldsChars layout (level + 1) rest ++
      layout.gap level ++ ['\x7d']))

/-- Further items, each after a comma. -/
def itemsChars (layout : Layout) (level : Nat) : List Json → List Char
  | [] => []
  | x :: xs => ',' :: (layout.gap level ++ chars layout level x ++ itemsChars layout level xs)

/-- Further fields, each after a comma. -/
def fieldsChars (layout : Layout) (level : Nat) : List (String × Json) → List Char
  | [] => []
  | (k, x) :: rest =>
    ',' :: (layout.gap level ++ quote k ++
      ':' :: (layout.afterColon ++ chars layout level x ++ fieldsChars layout level rest))

end

def compactChars (j : Json) : List Char :=
  j.chars .dense 0

def compact (j : Json) : String :=
  String.ofList j.compactChars

/-- A line break and the indentation of a level. -/
def newline (level : Nat) : List Char :=
  '\n' :: List.replicate (2 * level) ' '

def Layout.indented : Layout where
  gap := newline
  afterColon := [' ']

def pretty (j : Json) : String :=
  String.ofList (j.chars .indented 0)

/-- Null for a missing value. -/
def orNull : Option Json → Json
  | some j => j
  | none => .null

/-- A natural number as a value; beyond 64 bits it is written as null. -/
def nat (n : Nat) : Json :=
  orNull ((Integer.ofInt? n).map fun i => .number (.integer i))

/-- An array of strings. -/
def strings (xs : List String) : Json :=
  .array (xs.map .string)

end Json

end Schematic
