import LogRelay.Floating
import LogRelay.Format.Field

/-!
# Floating-point conversions

A finite number is rounded once to the digits that the conversion shows: to so many places for `f`, to so many
significant digits for `e`, and for `g` to significant digits written in the shorter of the two notations. `a`
rounds the binary significand to hexadecimal places.
-/

namespace LogRelay.Format

/-- A numeral: digits before and after the point, how many zeros come after those, and what follows them all. -/
structure Notation where
  whole : List Nat
  places : List Nat
  zeros : Nat
  tail : Bytes

/-- The numeral that shows `n` with its last `places` digits after the point. -/
def Notation.ofScaled (n places zeros : Nat) (tail : Bytes) : Notation :=
  let ds := padDigits (places + 1) (Radix.decimal.digits n)
  ⟨ds.take (ds.length - places), ds.drop (ds.length - places), zeros, tail⟩

/-- An exponent after its letter: a sign and at least `least` digits. -/
def exponentTail (letter : Char) (least : Nat) (e : Int) : Bytes :=
  letter.toUInt8 :: (if e < 0 then '-'.toUInt8 else '+'.toUInt8) ::
    (padDigits least (Radix.decimal.digits e.natAbs)).map (digitByte false)

def dropTrailingZeros (places : List Nat) : List Nat := (places.reverse.dropWhile (· = 0)).reverse

namespace Notation

def withoutTrailingZeros (n : Notation) : Notation := { n with places := dropTrailingZeros n.places, zeros := 0 }

/-- The text of a numeral. The point stands where digits follow it or the hash flag asks for it. -/
def output (n : Notation) (hash upper : Bool) : Output :=
  [.literal (n.whole.map (digitByte upper)), .literal (if hash || n.places ≠ [] || n.zeros ≠ 0 then ascii "." else []),
   .literal (n.places.map (digitByte upper)), .fill n.zeros '0'.toUInt8, .literal n.tail]

end Notation

/-- Fixed notation with so many places. Those that the exact value does not need are zeros. -/
def fixedNotation (v : BinaryFraction) (places : Nat) : Notation :=
  let needed := min places v.scale
  .ofScaled (v.fixed needed) needed (places - needed) []

/-- Scientific notation with so many places. Those that the exact value does not need are zeros. -/
def scientificNotation (v : BinaryFraction) (upper : Bool) (places : Nat) : Notation :=
  let needed := min places v.scientificPlaces
  let (q, e) := v.scientific needed
  .ofScaled q needed (places - needed) (exponentTail (if upper then 'E' else 'e') 2 e)

/-- So many significant digits, one at least: fixed notation where the exponent of the rounded value is at least -4
and below that number, else scientific. Trailing zeros stay only where `hash` is set, and not where the rounding itself
carried the value out of fixed notation. -/
def generalNotation (v : BinaryFraction) (upper hash : Bool) (significant : Nat) : Notation :=
  let count := max significant 1
  let e := (v.scientific (min (count - 1) v.scientificPlaces)).2
  let n :=
    if -4 ≤ e ∧ e < count then fixedNotation v ((count : Int) - 1 - e).toNat
    else scientificNotation v upper (count - 1)
  if hash && !(v.exponent10 < count && count ≤ e) then n else n.withoutTrailingZeros

/-- The significand in hexadecimal with so many places, or as many as it takes to be exact. A carry may make the
leading digit of a double two; one that leaves no digit before the places makes it one, four powers of two higher. -/
def hexadecimalNotation (x : Floating) (upper : Bool) (precision : Option Nat) : Notation :=
  let places := precision.getD x.places
  let needed := min places x.places
  let rounded := divHalfEven x.significand (Nat.pow 16 (x.places - needed))
  let (q, e) := if rounded = Nat.pow 16 (needed + 1) then (Nat.pow 16 needed, x.exponent + 4) else (rounded, x.exponent)
  let ds := padDigits (needed + 1) (Radix.hexadecimal.digits q)
  let n : Notation := ⟨ds.take 1, ds.drop 1, places - needed, exponentTail (if upper then 'P' else 'p') 1 e⟩
  if precision.isNone then n.withoutTrailingZeros else n

def nonFiniteText (x : Floating) (upper : Bool) : Bytes :=
  ascii (match x.isNaN, upper with
    | true, true => "NAN"
    | true, false => "nan"
    | false, true => "INF"
    | false, false => "inf")

/-- What fills on the right of a finite number: a hexadecimal one takes no zeros there. -/
def Style.realFiller (s : Style) (style : RealStyle) : Option UInt8 :=
  if s.zerosAfter then if style = .hexadecimal then none else some '0'.toUInt8 else some ' '.toUInt8

/-- The numeral of a finite number, six places where no precision is given. -/
def Style.numeral (s : Style) (style : RealStyle) (upper : Bool) (x : Floating) : Notation :=
  let places := s.precision.getD 6
  match style with
  | .fixed => fixedNotation x.magnitude places
  | .exponent => scientificNotation x.magnitude upper places
  | .general => generalNotation x.magnitude upper (s.has .hash) places
  | .hexadecimal => hexadecimalNotation x upper s.precision

def RealStyle.mark (style : RealStyle) (upper : Bool) : Bytes :=
  if style = .hexadecimal then ascii (if upper then "0X" else "0x") else []

/-- The field of a floating-point number. Zeros never fill an infinity or a NaN. -/
def Style.real (s : Style) (style : RealStyle) (upper : Bool) (x : Floating) : Field :=
  if x.isFinite then
    { front := s.sign x.negative ++ style.mark upper
      body := (s.numeral style upper x).output (s.has .hash) upper
      fillable := true
      filler := s.realFiller style }
  else { front := s.sign x.negative, body := [.literal (nonFiniteText x upper)], fillable := false }

end LogRelay.Format
