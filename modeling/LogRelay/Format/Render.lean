import LogRelay.Format.Argument
import LogRelay.Format.Integer
import LogRelay.Format.Real
import LogRelay.Format.Text

/-!
# Rendering

`render` is the text of a format over its arguments, without any limit on its length. `buffered` is what a reader
sees of it in a buffer of `bufferSize` bytes: the last byte is the NUL that ends it, so it is cut one byte below
that size, and a NUL that was rendered ends it earlier (`buffered_eq`).
-/

namespace LogRelay.Format

/-- The style of a directive, its width and precision known. A negative precision counts as none. -/
def Directive.style (d : Directive) (m : Mode) (width precision : Option Int) : Style where
  flags := d.flags
  left := d.flags.contains .minus || width.any (· < 0)
  width := (width.getD 0).natAbs
  precision := precision.bind fun p => if p < 0 then none else some p.toNat
  zerosAfter := m = .numbered && d.flags.contains .zero && !d.flags.contains .minus && width.any (· < 0)

/-- The field that a conversion makes of its argument, whose width its length modifier tells; an error is all that is
shown of an argument that ends the rendering. -/
def Style.field (s : Style) (m : Mode) (length : Length) (conversion : Conversion) (a : Argument) : Except Output Field :=
  match conversion with
  | .integer style => .ok (s.integer style (style.value (length.bits m) a.toWord))
  | .real style upper => .ok (s.real style upper (a.toFloating (if length.isExtended then .extended else .real)))
  | .character wide =>
    if wide || length.bits m = 64 then wideCharacter (a.toWord.toNat % Nat.pow 2 32) else .ok (.ofText [a.toWord.toUInt8])
  | .text wide =>
    match a.toText with
    | some bs => if wide || length.bits m = 64 then s.wideText bs else .ok (s.text (some bs))
    | none => .ok (s.text none)
  | .pointer => .ok (s.address a.toWord)
  | _ => .ok (.ofText [])

/-- A directive whose conversion is not known or not there, shown with its flags in a fixed order. -/
def Style.echo (s : Style) (conversion : Conversion) : Bytes :=
  let flag (f : Flag) (shown : Bool) : Bytes := if shown then [f.byte] else []
  ascii "%" ++ flag .hash (s.has .hash) ++ flag .quote (s.has .quote) ++ flag .plus (s.has .plus) ++
    flag .space (s.has .space && !s.has .plus) ++ flag .minus s.left ++
    flag .zero (s.has .zero && !s.has .minus) ++ flag .locale (s.has .locale) ++
    (if s.width = 0 then [] else spellNumber s.width) ++
    (s.precision.map fun p => ascii "." ++ spellNumber p).getD [] ++ conversion.bytes

/-- The text of a directive and the arguments after it, none where it ends the rendering: first its width is read, then
its precision, then its value. A percent sign takes no argument and no width, and a count shows nothing, whatever its
width. -/
def Directive.output (d : Directive) (m : Mode) (as : Arguments) : Output × Option Arguments :=
  let (width, as) := as.amount? m d.width
  let (precision, as) := as.amount? m d.precision
  let s := d.style m width precision
  match d.conversion.kind? d.length with
  | none => ([.literal (if d.conversion = .percent then ascii "%" else s.echo d.conversion)], some as)
  | some kind =>
    let (a, as) := as.take m kind d.source
    if d.conversion = .count then ([], some as)
    else
      match s.field m d.length d.conversion a with
      | .ok f => (f.output s, some as)
      | .error o => (o, none)

/-- The text of a segment and the arguments after it, none where it ends the rendering. -/
def Segment.output (s : Segment) (m : Mode) (as : Arguments) : Output × Option Arguments :=
  match s with
  | .byte b => ([.literal [b]], some as)
  | .directive d => d.output m as

def renderSegments : List (Mode × Segment) → Arguments → Bytes
  | [], _ => []
  | (m, s) :: rest, as =>
    match s.output m as with
    | (o, none) => o.toBytes
    | (o, some as) => o.toBytes ++ renderSegments rest as

def rendered (format : Bytes) : List (Mode × Segment) := collectable (scheduled (segments format))

/-- The text of a format over its arguments. -/
def render (format : Bytes) (args : List Argument) : Bytes :=
  let ss := rendered format
  renderSegments ss (.ofUses (segmentUses ss 0) args)

/-- The first `n` bytes of the text of segments: those after them are not rendered. -/
def renderFirst : Nat → List (Mode × Segment) → Arguments → Bytes
  | 0, _, _ => []
  | _, [], _ => []
  | n + 1, (m, s) :: rest, as =>
    match s.output m as with
    | (o, none) => o.firstBytes (n + 1)
    | (o, some as) => o.firstBytes (n + 1) ++ renderFirst (n + 1 - o.size) rest as

theorem renderFirst_eq (n : Nat) (ss : List (Mode × Segment)) (as : Arguments) :
    renderFirst n ss as = (renderSegments ss as).take n := by
  induction ss generalizing n as with
  | nil => cases n <;> simp [renderFirst, renderSegments]
  | cons s ss ih =>
    cases n with
    | zero => simp [renderFirst]
    | succ n =>
      simp only [renderFirst, renderSegments]
      split
      · rw [Output.firstBytes_eq]
      · rw [ih, Output.firstBytes_eq, List.take_append, Output.length_toBytes]

/-- The size of the buffer that messages are rendered into. -/
def bufferSize : Nat := 16384

/-- What a reader sees in the buffer. A null format renders nothing. -/
def buffered (format : TextPointer) (args : List Argument) : Bytes :=
  let ss := rendered format.bytes
  Bytes.untilNul (renderFirst (bufferSize - 1) ss (.ofUses (segmentUses ss 0) args))

theorem buffered_eq (format : TextPointer) (args : List Argument) :
    buffered format args = Bytes.untilNul ((render format.bytes args).take (bufferSize - 1)) := by
  rw [buffered, render, renderFirst_eq]

end LogRelay.Format
