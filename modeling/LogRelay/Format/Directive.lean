import LogRelay.Numeral
import LogRelay.Text.Utf8

/-!
# Directives of a format

A format is bytes that stand for themselves and directives, each a percent sign followed by an optional position, flags,
width, precision, length and the conversion. `Directive.spell` writes a directive as it stands in a format. A directive
may also have a conversion that nobody knows, or none at all where the format ends inside it.
-/

namespace LogRelay.Format

def ascii (s : String) : Bytes := s.toList.map Char.toUInt8

/-- A flag. Neither grouping (`quote`) nor the digits of a locale (`locale`) change a number. -/
inductive Flag where
  | minus | plus | space | hash | zero | quote | locale
  deriving DecidableEq

namespace Flag

def all : List Flag := [minus, plus, space, hash, zero, quote, locale]

def byte : Flag → UInt8
  | minus => '-'.toUInt8
  | plus => '+'.toUInt8
  | space => ' '.toUInt8
  | hash => '#'.toUInt8
  | zero => '0'.toUInt8
  | quote => '\''.toUInt8
  | locale => 'I'.toUInt8

def ofByte? (b : UInt8) : Option Flag := all.find? fun f => f.byte = b

end Flag

/-- The largest number in a directive that counts. -/
def maxNumber : Nat := Nat.pow 2 31 - 1

/-- Where a value is taken from: the next argument, or the one at an index counted from zero. -/
inductive Source where
  | next
  | nth (index : Nat)
  /-- At a position above `maxNumber`. -/
  | excessive
  deriving DecidableEq

/-- A width or a precision: given in the format, or an argument. -/
inductive Amount where
  | given (n : Nat)
  /-- Given, but above `maxNumber`. -/
  | excessive
  | argument (source : Source)
  deriving DecidableEq

inductive Length where
  | hh | h | ll | l | q | L | j | z | Z | t | plain
  deriving DecidableEq

namespace Length

/-- All modifiers, each before those it begins with. -/
def all : List Length := [hh, h, ll, l, q, L, j, z, Z, t, plain]

def bytes : Length → Bytes
  | hh => ascii "hh"
  | h => ascii "h"
  | ll => ascii "ll"
  | l => ascii "l"
  | q => ascii "q"
  | L => ascii "L"
  | j => ascii "j"
  | z => ascii "z"
  | Z => ascii "Z"
  | t => ascii "t"
  | plain => []

end Length

/-- How an integer is written. -/
inductive IntegerStyle where
  | d | i | u | o | x | X | b | B
  deriving DecidableEq

/-- How a floating-point number is written. -/
inductive RealStyle where
  | fixed | exponent | general | hexadecimal
  deriving DecidableEq

inductive Conversion where
  | integer (style : IntegerStyle)
  | real (style : RealStyle) (upper : Bool)
  | character (wide : Bool)
  | text (wide : Bool)
  | pointer
  /-- Takes a pointer and shows nothing: how much was shown so far is stored there. -/
  | count
  | percent
  /-- A byte that is no conversion. -/
  | unknown (b : UInt8)
  /-- The format ends before the conversion. -/
  | missing
  deriving DecidableEq

namespace Conversion

/-- The conversions and their bytes. -/
def known : List (Conversion × UInt8) :=
  [(integer .d, 'd'.toUInt8), (integer .i, 'i'.toUInt8), (integer .u, 'u'.toUInt8), (integer .o, 'o'.toUInt8),
   (integer .x, 'x'.toUInt8), (integer .X, 'X'.toUInt8), (integer .b, 'b'.toUInt8), (integer .B, 'B'.toUInt8),
   (real .fixed false, 'f'.toUInt8), (real .fixed true, 'F'.toUInt8),
   (real .exponent false, 'e'.toUInt8), (real .exponent true, 'E'.toUInt8),
   (real .general false, 'g'.toUInt8), (real .general true, 'G'.toUInt8),
   (real .hexadecimal false, 'a'.toUInt8), (real .hexadecimal true, 'A'.toUInt8),
   (character false, 'c'.toUInt8), (character true, 'C'.toUInt8), (text false, 's'.toUInt8), (text true, 'S'.toUInt8),
   (pointer, 'p'.toUInt8), (count, 'n'.toUInt8), (percent, '%'.toUInt8)]

def bytes (c : Conversion) : Bytes :=
  match c with
  | unknown b => [b]
  | missing => []
  | c => (known.lookup c).toList

def ofByte (b : UInt8) : Conversion := ((known.find? fun c => c.2 = b).map Prod.fst).getD (unknown b)

end Conversion

structure Directive where
  source : Source
  flags : List Flag
  width : Option Amount
  precision : Option Amount
  length : Length
  conversion : Conversion
  deriving DecidableEq

/-! ## Spelling -/

/-- A number in decimal, with at least one digit. -/
def spellNumber (n : Nat) : Bytes := (padDigits 1 (Radix.decimal.digits n)).map (digitByte false)

/-- Positions are counted from one. -/
def Source.spell : Source → Bytes
  | .next => []
  | .nth index => spellNumber (index + 1) ++ ascii "$"
  | .excessive => spellNumber (maxNumber + 1) ++ ascii "$"

def Amount.spell : Amount → Bytes
  | .given n => spellNumber n
  | .excessive => spellNumber (maxNumber + 1)
  | .argument source => ascii "*" ++ source.spell

def Directive.spell (d : Directive) : Bytes :=
  ascii "%" ++ d.source.spell ++ d.flags.map Flag.byte ++ (d.width.map Amount.spell).getD [] ++
    (d.precision.map fun p => ascii "." ++ p.spell).getD [] ++ d.length.bytes ++ d.conversion.bytes

end LogRelay.Format
