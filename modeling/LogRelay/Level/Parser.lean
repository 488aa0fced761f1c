import LogRelay.Fault
import LogRelay.Level
import LogRelay.Numeral
import LogRelay.Text.Blank

/-!
# Reading levels

A level is written as its ordinal or as one of a few words in any case, with blanks around it. An ordinal may have a
plus sign and leading zeros; one that does not fit a 32-bit word counts as text.
-/

namespace LogRelay.Level

def words : Level → List String
  | off => ["x", "none", "off"]
  | error => ["e", "error"]
  | warn => ["w", "warn", "warning"]
  | info => ["i", "info"]
  | debug => ["d", "debug"]
  | trace => ["t", "trace"]

/-- The level that a word in lower case stands for. -/
def ofWord? (s : String) : Option Level := all.find? fun l => l.words.contains s

def digit? (c : Char) : Option Nat := if c.isDigit then some (c.toNat - '0'.toNat) else none

/-- The number below `limit` that one or more decimal digits stand for. -/
def unsigned? (limit : Nat) (cs : List Char) : Option Nat :=
  if cs = [] then none else ((cs.mapM digit?).map (Radix.decimal.ofDigitsUpTo limit)).filter (· < limit)

/-- A number below `2 ^ 32` in decimal, a plus sign before it or not. -/
def number? (cs : List Char) : Option Nat :=
  let digits := match cs with
    | '+' :: rest => rest
    | _ => cs
  unsigned? (Nat.pow 2 32) digits

/-- The level of an ordinal, which has to be one. -/
def ofNumber (n : Nat) : Except Fault Level :=
  match ofOrdinal? n with
  | some l => .ok l
  | none => .error (.levelNumber n)

def parse (s : String) : Except Fault Level :=
  let t := Text.trim s
  match number? t.toList with
  | some n => ofNumber n
  | none =>
    match ofWord? (Text.lower t) with
    | some l => .ok l
    | none => .error (.levelText t)

end LogRelay.Level
