import LogRelay.Format.Mode
import LogRelay.Format.Output

/-!
# Fields

A conversion makes a field: what stands in front of any filling zeros, the body, and whether zeros may fill. The
width is then made up by blanks on one side or by zeros between the two parts.
-/

namespace LogRelay.Format

/-- How a directive formats, its width and precision known. -/
structure Style where
  flags : List Flag
  /-- A negative width asks for blanks on the right, as the minus flag does. -/
  left : Bool
  width : Nat
  precision : Option Nat
  /-- Whether zeros fill a number on the right: with the zero flag, where an argument gave a negative width in a
  numbered format. -/
  zerosAfter : Bool
  deriving DecidableEq

def Style.has (s : Style) (f : Flag) : Bool := s.flags.contains f

structure Field where
  /-- The sign and the mark of the radix. -/
  front : Bytes
  body : Output
  /-- Whether the zero flag applies. -/
  fillable : Bool
  /-- What fills on the right, if anything does. -/
  filler : Option UInt8 := some ' '.toUInt8

def Style.sign (s : Style) (negative : Bool) : Bytes :=
  if negative then ascii "-"
  else if s.has .plus then ascii "+"
  else if s.has .space then ascii " "
  else []

/-- The field at least as wide as asked for. -/
def Field.output (f : Field) (s : Style) : Output :=
  let missing := s.width - (f.front.length + f.body.size)
  if s.left then .literal f.front :: f.body ++ (f.filler.map fun b => [.fill missing b]).getD []
  else if f.fillable && s.has .zero then .literal f.front :: .fill missing '0'.toUInt8 :: f.body
  else .fill missing ' '.toUInt8 :: .literal f.front :: f.body

/-- A field of text, which zeros never fill. -/
def Field.ofText (bs : Bytes) : Field := { front := [], body := [.literal bs], fillable := false }

end LogRelay.Format
