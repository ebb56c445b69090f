import Schematic.Json.Document
import Schematic.Json.Token

namespace Schematic.Json

namespace Reader

/-- An open bracket with what it holds so far, latest first. The object waits for the value of a
key. -/
inductive Frame where
  | array (items : List Document)
  | object (fields : List (Option String × Document)) (key : Option String)

/-- What may come next. -/
inductive State where
  /-- A value. -/
  | value (frames : List Frame)
  /-- The first item of an array, or its end. -/
  | item (frames : List Frame)
  /-- The first key of an object, or its end. -/
  | entry (frames : List Frame)
  /-- A key. -/
  | key (fields : List (Option String × Document)) (frames : List Frame)
  /-- A colon. -/
  | colon (fields : List (Option String × Document)) (key : Option String) (frames : List Frame)
  /-- A comma, or the end of an array. -/
  | afterItem (items : List Document) (frames : List Frame)
  /-- A comma, or the end of an object. -/
  | afterField (fields : List (Option String × Document)) (frames : List Frame)
  /-- Nothing. -/
  | complete (d : Document)

/-- An object one of whose keys is unreadable cannot be used at all. -/
def closeObject (fields : List (Option String × Document)) : Document :=
  match fields.reverse.mapM fun (k, d) => k.map (·, d) with
  | some entries => .object entries
  | none => .unreadable

/-- Hands a document to the innermost open bracket. -/
def settle (d : Document) : List Frame → State
  | [] => .complete d
  | .array items :: frames => .afterItem (d :: items) frames
  | .object fields key :: frames => .afterField ((key, d) :: fields) frames

/-- A token that starts a value. -/
def beginValue? (frames : List Frame) : Token → Option State
  | .null => some (settle .null frames)
  | .bool b => some (settle (.bool b) frames)
  | .number (some n) => some (settle (.number n) frames)
  | .number none => some (settle .unreadable frames)
  | .string (some s) => some (settle (.string s) frames)
  | .string none => some (settle .unreadable frames)
  | .openBracket => some (.item frames)
  | .openBrace => some (.entry frames)
  | _ => none

def step? : State → Token → Option State
  | .value frames, t => beginValue? frames t
  | .item frames, .closeBracket => some (settle (.array []) frames)
  | .item frames, t => beginValue? (.array [] :: frames) t
  | .entry frames, .closeBrace => some (settle (.object []) frames)
  | .entry frames, .string k => some (.colon [] k frames)
  | .key fields frames, .string k => some (.colon fields k frames)
  | .colon fields k frames, .colon => some (.value (.object fields k :: frames))
  | .afterItem items frames, .comma => some (.value (.array items :: frames))
  | .afterItem items frames, .closeBracket => some (settle (.array items.reverse) frames)
  | .afterField fields frames, .comma => some (.key fields frames)
  | .afterField fields frames, .closeBrace => some (settle (closeObject fields) frames)
  | _, _ => none

def finish? : State → Option Document
  | .complete d => some d
  | _ => none

end Reader

namespace Document

def ofTokens? (tokens : List Token) : Option Document := do
  Reader.finish? (← tokens.foldlM Reader.step? (.value []))

/-- Reads a whole text. -/
def read? (text : String) : Option Document := do
  ofTokens? (← Token.scan? text.toList)

end Document

/-- Reads a text as a value. -/
def read? (text : String) : Option Json := do
  (← Document.read? text).value? maxDepth

end Schematic.Json
