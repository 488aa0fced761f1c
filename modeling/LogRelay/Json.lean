import LogRelay.Numeral

/-!
# JSON objects on one line

The compact form of a flat object: no blanks, fields in the order given. Inside strings the quote, the backslash and
all controls below the space are escaped, so a line never breaks.
-/

namespace LogRelay.Json

inductive Value where
  | null
  | number (n : Nat)
  | text (s : String)
  deriving DecidableEq

def hex4 (n : Nat) : List Char :=
  (padDigits 4 (Radix.hexadecimal.digits n)).map fun d => Char.ofNat (digitByte false d).toNat

def escapeChar (c : Char) : List Char :=
  if c = '"' then ['\\', '"']
  else if c = '\\' then ['\\', '\\']
  else if c = '\x08' then ['\\', 'b']
  else if c = '\x0c' then ['\\', 'f']
  else if c = '\n' then ['\\', 'n']
  else if c = '\r' then ['\\', 'r']
  else if c = '\t' then ['\\', 't']
  else if c.toNat < 0x20 then '\\' :: 'u' :: hex4 c.toNat
  else [c]

/-- A string in its quotes. -/
def quote (s : String) : List Char := '"' :: s.toList.flatMap escapeChar ++ ['"']

def Value.chars : Value → List Char
  | .null => "null".toList
  | .number n => (padDigits 1 (Radix.decimal.digits n)).map fun d => Char.ofNat (digitByte false d).toNat
  | .text s => quote s

def fieldChars (f : String × Value) : List Char := quote f.1 ++ ':' :: f.2.chars

def objectChars (fields : List (String × Value)) : List Char :=
  '\x7b' :: [','].intercalate (fields.map fieldChars) ++ ['\x7d']

end LogRelay.Json
