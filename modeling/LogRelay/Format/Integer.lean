import LogRelay.Format.Field

/-!
# Integer conversions

An argument word is reduced to the width of its length modifier, as a two's complement number for the signed
conversions, and written in the radix of the conversion with at least as many digits as the precision asks for.
-/

namespace LogRelay.Format

namespace IntegerStyle

def signed : IntegerStyle → Bool
  | d => true
  | i => true
  | _ => false

def radix : IntegerStyle → Radix
  | o => .octal
  | x => .hexadecimal
  | X => .hexadecimal
  | b => .binary
  | B => .binary
  | _ => .decimal

def upper : IntegerStyle → Bool
  | X => true
  | _ => false

/-- The mark of the radix, for a number other than zero. -/
def mark : IntegerStyle → Bytes
  | x => ascii "0x"
  | X => ascii "0X"
  | b => ascii "0b"
  | B => ascii "0B"
  | _ => []

end IntegerStyle

/-- The integer that a conversion of the style reads from a word, of which the lowest `bits` count. -/
def IntegerStyle.value (style : IntegerStyle) (bits : Nat) (w : UInt64) : Int :=
  if style.signed then Int.bmod w.toNat (Nat.pow 2 bits) else (w.toNat % Nat.pow 2 bits : Nat)

/-- The mark of the radix, where the hash flag asks for it. -/
def Style.mark (s : Style) (style : IntegerStyle) (magnitude : Nat) : Bytes :=
  if s.has .hash && magnitude ≠ 0 then style.mark else []

/-- The digits of a number: as many as the precision asks for, one where there is none, and with the hash flag a
leading zero in octal. -/
def Style.integerDigits (s : Style) (style : IntegerStyle) (magnitude : Nat) : Output :=
  let ds := style.radix.digits magnitude
  let least := if s.has .hash && style.radix = .octal then ds.length + 1 else 0
  [.fill (max (s.precision.getD 1) least - ds.length) '0'.toUInt8, .literal (ds.map (digitByte style.upper))]

/-- The field of an integer. Zeros fill it only where no precision is given. -/
def Style.integer (s : Style) (style : IntegerStyle) (v : Int) : Field where
  front := (if style.signed then s.sign (v < 0) else []) ++ s.mark style v.natAbs
  body := s.integerDigits style v.natAbs
  fillable := s.precision.isNone

/-- The field of an address: hexadecimal with its mark, and `(nil)` for the null pointer. -/
def Style.address (s : Style) (w : UInt64) : Field :=
  if w = 0 then .ofText (ascii "(nil)")
  else
    let marked := { s with flags := .hash :: s.flags }
    let f := marked.integer .x w.toNat
    { f with front := s.sign false ++ f.front }

end LogRelay.Format
