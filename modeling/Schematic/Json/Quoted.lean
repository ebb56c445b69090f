namespace Schematic.Json.Quoted

def hexDigits : List Char :=
  ['0', '1', '2', '3', '4', '5', '6', '7', '8', '9', 'a', 'b', 'c', 'd', 'e', 'f']

def hexDigit (n : Nat) : Char :=
  hexDigits.getD n '0'

def hexValue? (c : Char) : Option Nat :=
  if '0' ≤ c ∧ c ≤ '9' then some (c.toNat - '0'.toNat)
  else if 'a' ≤ c ∧ c ≤ 'f' then some (c.toNat - 'a'.toNat + 10)
  else if 'A' ≤ c ∧ c ≤ 'F' then some (c.toNat - 'A'.toNat + 10)
  else none

/-- How one character is written. -/
def escape (c : Char) : List Char :=
  if c = '"' then ['\\', '"']
  else if c = '\\' then ['\\', '\\']
  else if c = '\x08' then ['\\', 'b']
  else if c = '\x0c' then ['\\', 'f']
  else if c = '\n' then ['\\', 'n']
  else if c = '\r' then ['\\', 'r']
  else if c = '\t' then ['\\', 't']
  else if c.toNat < 0x20 then
    ['\\', 'u', '0', '0', hexDigit (c.toNat / 16), hexDigit (c.toNat % 16)]
  else [c]

def encode (cs : List Char) : List Char :=
  cs.flatMap escape

/-- The character of a short escape. -/
def shortEscape? : Char → Option Char
  | '"' => some '"'
  | '\\' => some '\\'
  | '/' => some '/'
  | 'b' => some '\x08'
  | 'f' => some '\x0c'
  | 'n' => some '\n'
  | 'r' => some '\r'
  | 't' => some '\t'
  | _ => none

/-- A code point as read. Surrogates can come only from escapes. -/
inductive CodePoint where
  | scalar (c : Char)
  | high (n : Nat)
  | low (n : Nat)
deriving DecidableEq, Repr

def CodePoint.ofNat (n : Nat) : CodePoint :=
  if 0xd800 ≤ n ∧ n < 0xdc00 then .high (n - 0xd800)
  else if 0xdc00 ≤ n ∧ n < 0xe000 then .low (n - 0xdc00)
  else .scalar (Char.ofNat n)

/-- The number that four hexadecimal digits denote. -/
def hexNumber? (a b c d : Char) : Option Nat := do
  return ((← hexValue? a) * 16 + (← hexValue? b)) * 256 + ((← hexValue? c) * 16 + (← hexValue? d))

/-- The code points between the quotes; none if an escape is malformed or a control character is
not escaped. -/
def unescape? : List Char → Option (List CodePoint)
  | [] => some []
  | '\\' :: 'u' :: a :: b :: c :: d :: rest => do
    let n ← hexNumber? a b c d
    return .ofNat n :: (← unescape? rest)
  | '\\' :: e :: rest => do
    let c ← shortEscape? e
    return .scalar c :: (← unescape? rest)
  | c :: rest =>
    if c = '\\' ∨ c = '"' ∨ c.toNat < 0x20 then none
    else do return .scalar c :: (← unescape? rest)

/-- Joins surrogate pairs; none if a surrogate stands alone. -/
def join? : List CodePoint → Option (List Char)
  | [] => some []
  | .scalar c :: rest => do return c :: (← join? rest)
  | .high h :: .low l :: rest => do
    return Char.ofNat (0x10000 + h * 0x400 + l) :: (← join? rest)
  | _ => none

end Schematic.Json.Quoted
