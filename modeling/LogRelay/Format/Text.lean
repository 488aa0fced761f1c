import LogRelay.Format.Field
import LogRelay.Text.Terminated

/-!
# Text conversions

Text is shown as the bytes behind its pointer. Wide text is a sequence of 32-bit units of which only those below 128
have a byte: the first other one ends the rendering, and what was shown before it stays.
-/

namespace LogRelay.Format

/-- The field of text: as many bytes as the precision allows. A null pointer shows as `(null)` where that fits. -/
def Style.text (s : Style) (p : TextPointer) : Field :=
  match p, s.precision with
  | some _, none => .ofText p.bytes
  | some _, some most => .ofText (p.bytes.take most)
  | none, none => .ofText (ascii "(null)")
  | none, some most => .ofText (if most < 6 then [] else ascii "(null)")

/-- The units of wide text, each of four bytes with the lowest first, before its first zero unit. -/
def wideUnits : Bytes → List Nat
  | b0 :: b1 :: b2 :: b3 :: rest =>
    let unit := b0.toNat + b1.toNat * Nat.pow 2 8 + b2.toNat * Nat.pow 2 16 + b3.toNat * Nat.pow 2 24
    if unit = 0 then [] else unit :: wideUnits rest
  | bs =>
    let unit := bs.foldr (fun b n => b.toNat + n * Nat.pow 2 8) 0
    if unit = 0 then [] else [unit]

def wideByte? (unit : Nat) : Option UInt8 := if unit < 128 then some (UInt8.ofNat unit) else none

/-- How many units of wide text are shown at a time. -/
def wideBlock : Nat := 256

/-- The field of wide text, or what is shown of it where a unit has no byte: the whole blocks before that unit. Where
blanks go on the left the text is measured first: nothing is then shown of a text with a precision, and one without
counts as one byte less than none. -/
def Style.wideText (s : Style) (bs : Bytes) : Except Output Field :=
  let units := wideUnits bs
  let units := (s.precision.map units.take).getD units
  match units.mapM wideByte? with
  | some shown => .ok (.ofText shown)
  | none =>
    let fine := (units.takeWhile fun u => (wideByte? u).isSome).filterMap wideByte?
    let blocks := .literal (fine.take (fine.length / wideBlock * wideBlock))
    if s.width = 0 || s.left then .error [blocks]
    else if s.precision.isSome then .error []
    else .error [.fill (s.width + 1) ' '.toUInt8, blocks]

/-- The field of a wide character, which is not shown where it has no byte. -/
def wideCharacter (unit : Nat) : Except Output Field :=
  match wideByte? unit with
  | some b => .ok (.ofText [b])
  | none => .error []

end LogRelay.Format
