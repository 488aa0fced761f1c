import LogRelay.Numeral

/-!
# Floating-point numbers

A double by its 64 bits: a sign, an exponent field of 11 bits and a fraction of 52. A long double has 80: a sign, an
exponent field of 15 bits and a significand of 64, whose leading bit is among them. A finite one of either is exactly the
binary fraction `magnitude` with that sign. `fixed` and `scientific` round a binary fraction to a decimal grid once,
exactly, a half to the even neighbour.
-/

namespace LogRelay

/-- The number `num / 2 ^ scale`, whose decimal expansion has no more than `scale` places. -/
structure BinaryFraction where
  num : Nat
  scale : Nat
  deriving DecidableEq

/-- What a conversion can show of a floating-point number, whatever its format. -/
structure Floating where
  negative : Bool
  /-- Neither an infinity nor a NaN. -/
  isFinite : Bool
  isNaN : Bool
  /-- The absolute value of a finite one. -/
  magnitude : BinaryFraction
  /-- The significand as an integer, which has so many hexadecimal digits after the first. -/
  significand : Nat
  places : Nat
  /-- The power of two that the lowest bit of the first of them stands for. Of a zero it is zero. -/
  exponent : Int

/-- The bits of a double. -/
structure Binary64 where
  bits : UInt64
  deriving DecidableEq

namespace Binary64

def negative (x : Binary64) : Bool := x.bits.toNat / Nat.pow 2 63 = 1

def exponent (x : Binary64) : Nat := x.bits.toNat / Nat.pow 2 52 % Nat.pow 2 11

def fraction (x : Binary64) : Nat := x.bits.toNat % Nat.pow 2 52

/-- Neither an infinity nor a NaN. -/
def isFinite (x : Binary64) : Bool := x.exponent ≠ 2047

def isNaN (x : Binary64) : Bool := x.exponent = 2047 && x.fraction ≠ 0

/-- The leading bit, absent from the word: zero for a zero or subnormal. -/
def leading (x : Binary64) : Nat := if x.exponent = 0 then 0 else 1

/-- The integer significand: the leading bit and the fraction. -/
def significand (x : Binary64) : Nat := x.leading * Nat.pow 2 52 + x.fraction

/-- The power of two, raised by 1074, that multiplies the significand. -/
def scale (x : Binary64) : Nat := x.exponent - 1

/-- The absolute value of a finite double: `significand * 2 ^ (scale - 1074)`. -/
def magnitude (x : Binary64) : BinaryFraction := ⟨x.significand * Nat.pow 2 (x.scale - 1074), 1074 - x.scale⟩

def floating (x : Binary64) : Floating where
  negative := x.negative
  isFinite := x.isFinite
  isNaN := x.isNaN
  magnitude := x.magnitude
  significand := x.significand
  places := 13
  exponent := if x.exponent ≠ 0 then (x.exponent : Int) - 1023 else if x.fraction ≠ 0 then -1022 else 0

end Binary64

/-- The bits of a long double: the sign and the exponent field, and the significand. -/
structure Extended80 where
  top : UInt16
  significand : UInt64
  deriving DecidableEq

namespace Extended80

def negative (x : Extended80) : Bool := x.top.toNat / Nat.pow 2 15 = 1

def exponent (x : Extended80) : Nat := x.top.toNat % Nat.pow 2 15

/-- Whether the leading bit is there where the exponent field asks for it. -/
def isNormal (x : Extended80) : Bool := x.exponent = 0 || Nat.pow 2 63 ≤ x.significand.toNat

def isFinite (x : Extended80) : Bool := x.exponent ≠ 32767 && x.isNormal

/-- Neither finite nor an infinity. What lacks its leading bit is no number either. -/
def isNaN (x : Extended80) : Bool := !x.isFinite && x.significand.toNat ≠ Nat.pow 2 63

/-- The power of two, raised by 16445, that multiplies the significand. -/
def scale (x : Extended80) : Nat := x.exponent - 1

/-- The absolute value of a finite long double: `significand * 2 ^ (scale - 16445)`. -/
def magnitude (x : Extended80) : BinaryFraction :=
  ⟨x.significand.toNat * Nat.pow 2 (x.scale - 16445), 16445 - x.scale⟩

def floating (x : Extended80) : Floating where
  negative := x.negative
  isFinite := x.isFinite
  isNaN := x.isNaN
  magnitude := x.magnitude
  significand := x.significand.toNat
  places := 15
  exponent := if x.significand = 0 then 0 else (x.scale : Int) - 16385

end Extended80

namespace BinaryFraction

def den (v : BinaryFraction) : Nat := Nat.pow 2 v.scale

/-- `v` in units of `10 ^ -places`, rounded. -/
def fixed (v : BinaryFraction) (places : Nat) : Nat := divHalfEven (v.num * Nat.pow 10 places) v.den

/-- The exponent of the power of ten at or below `v`, zero for zero. -/
def exponent10 (v : BinaryFraction) : Int :=
  if v.num = 0 then 0
  else if v.den ≤ v.num then ((Radix.decimal.digits (v.num / v.den)).length : Int) - 1
  else -((Radix.decimal.digits ((v.den - 1) / v.num)).length : Int)

/-- `v` in units of `10 ^ unit`, rounded. -/
def inUnits (v : BinaryFraction) (unit : Int) : Nat :=
  divHalfEven (v.num * Nat.pow 10 (-unit).toNat) (v.den * Nat.pow 10 unit.toNat)

/-- `v` rounded to `places + 1` significant digits: the digits as one number, and the exponent of the first. A
carry into a new digit raises the exponent. -/
def scientific (v : BinaryFraction) (places : Nat) : Nat × Int :=
  let e := v.exponent10
  let q := v.inUnits (e - places)
  if q = Nat.pow 10 (places + 1) then (Nat.pow 10 places, e + 1) else (q, e)

/-- How many digits after the first significant one are enough for `v` to be exact. -/
def scientificPlaces (v : BinaryFraction) : Nat := (v.exponent10 + v.scale).toNat

end BinaryFraction
end LogRelay
