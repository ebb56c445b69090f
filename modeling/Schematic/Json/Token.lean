import Schematic.Json.Numeral
import Schematic.Json.Quoted

namespace Schematic.Json

/-- A string or number is none where it is well formed but stands for no value. -/
inductive Token where
  | openBrace
  | closeBrace
  | openBracket
  | closeBracket
  | colon
  | comma
  | null
  | bool (b : Bool)
  | number (n : Option Number)
  | string (s : Option String)
deriving DecidableEq

namespace Token

/-- The four blanks of the grammar. -/
def isSpace (c : Char) : Bool :=
  c == ' ' || c == '\t' || c == '\n' || c == '\r'

/-- The characters of the constants and of numbers. -/
def isWordChar (c : Char) : Bool :=
  c.isAlphanum || c == '+' || c == '-' || c == '.'

def punctuation? : Char → Option Token
  | '\x7b' => some openBrace
  | '\x7d' => some closeBrace
  | '[' => some openBracket
  | ']' => some closeBracket
  | ':' => some colon
  | ',' => some comma
  | _ => none

/-- The token of a bare word. -/
def ofWord? (word : List Char) : Option Token :=
  if word = "null".toList then some null
  else if word = "true".toList then some (bool true)
  else if word = "false".toList then some (bool false)
  else (Numeral.ofChars? word).map fun n => number n.number?

/-- The token of what stands between two quotes. -/
def ofQuoted? (body : List Char) : Option Token :=
  (Quoted.unescape? body).map fun points => string ((Quoted.join? points).map String.ofList)

/-- What the scanner is in the middle of; characters are kept latest first. -/
inductive Mode where
  | between
  | word (chars : List Char)
  | quoted (chars : List Char)
  | escaped (chars : List Char)

/-- The scanner's state; tokens are kept latest first. -/
structure Scan where
  tokens : List Token
  mode : Mode

namespace Scan

def start : Scan := ⟨[], .between⟩

/-- A character that does not continue anything. -/
def enter? (tokens : List Token) (c : Char) : Option Scan :=
  if isSpace c then some ⟨tokens, .between⟩
  else if c = '"' then some ⟨tokens, .quoted []⟩
  else if isWordChar c then some ⟨tokens, .word [c]⟩
  else (punctuation? c).map fun t => ⟨t :: tokens, .between⟩

def step? (s : Scan) (c : Char) : Option Scan :=
  match s.mode with
  | .between => enter? s.tokens c
  | .word chars =>
    if isWordChar c then some ⟨s.tokens, .word (c :: chars)⟩
    else do enter? ((← ofWord? chars.reverse) :: s.tokens) c
  | .quoted chars =>
    if c = '"' then do return ⟨(← ofQuoted? chars.reverse) :: s.tokens, .between⟩
    else if c = '\\' then some ⟨s.tokens, .escaped (c :: chars)⟩
    else some ⟨s.tokens, .quoted (c :: chars)⟩
  | .escaped chars => some ⟨s.tokens, .quoted (c :: chars)⟩

/-- The tokens at the end of the text; none inside a string. -/
def finish? (s : Scan) : Option (List Token) :=
  match s.mode with
  | .between => some s.tokens.reverse
  | .word chars => do return ((← ofWord? chars.reverse) :: s.tokens).reverse
  | .quoted _ => none
  | .escaped _ => none

end Scan

/-- The tokens of a text. -/
def scan? (cs : List Char) : Option (List Token) := do
  (← cs.foldlM Scan.step? Scan.start).finish?

end Token

end Schematic.Json
