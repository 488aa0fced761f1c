import LogRelay.Format.Directive

/-!
# Reading formats

Every reader takes what it can from the front and returns the rest, which is never longer. A percent sign always begins
a directive, if need be one without a known conversion, and a number that no reader takes is left to the next one.
-/

namespace LogRelay.Format

def isDigit (b : UInt8) : Bool := '0'.toUInt8 ≤ b && b ≤ '9'.toUInt8

/-- The decimal number that `bs` begins with, or the one after `maxNumber` if it is larger. -/
def readNumber (bs : Bytes) : Option Nat × Bytes :=
  match bs.takeWhile isDigit with
  | [] => (none, bs)
  | ds =>
    (some (Radix.decimal.ofDigitsUpTo (maxNumber + 1) (ds.map fun b => (b - '0'.toUInt8).toNat)),
      bs.dropWhile isDigit)

def Length.read (bs : Bytes) : Length × Bytes :=
  let modifier := (all.find? fun m => m.bytes.isPrefixOf bs).getD plain
  (modifier, bs.drop modifier.bytes.length)

/-- The source of a position, counted from one. -/
def Source.ofPosition (index : Nat) : Source := if index + 1 ≤ maxNumber then .nth index else .excessive

/-- The position that `bs` begins with: a number above zero and a dollar sign. -/
def Source.read (bs : Bytes) : Source × Bytes :=
  match readNumber bs with
  | (some (index + 1), b :: rest) => if b = '$'.toUInt8 then (.ofPosition index, rest) else (.next, bs)
  | _ => (.next, bs)

/-- The position behind a star. A number too large to count is not taken, whatever follows it. -/
def Source.readStarred (bs : Bytes) : Source × Bytes :=
  match (readNumber bs).1 with
  | some n => if n ≤ maxNumber then Source.read bs else (.excessive, bs)
  | none => (.next, bs)

def Amount.ofNumber (n : Nat) : Amount := if n ≤ maxNumber then .given n else .excessive

/-- The amount that `bs` begins with: a star and an optional position, or a number. -/
def Amount.read (bs : Bytes) : Option Amount × Bytes :=
  match bs with
  | b :: rest =>
    if b = '*'.toUInt8 then
      let (source, rest) := Source.readStarred rest
      (some (.argument source), rest)
    else
      let (n, rest) := readNumber bs
      (n.map .ofNumber, rest)
  | [] => (none, [])

/-- The precision that `bs` begins with: a period and an amount, where none means zero. -/
def readPrecision (bs : Bytes) : Option Amount × Bytes :=
  match bs with
  | b :: rest =>
    if b = '.'.toUInt8 then
      let (amount, rest) := Amount.read rest
      (some (amount.getD (.given 0)), rest)
    else (none, bs)
  | [] => (none, [])

def Conversion.read (bs : Bytes) : Conversion × Bytes :=
  match bs with
  | b :: rest => (.ofByte b, rest)
  | [] => (.missing, [])

/-- The directive that stands after a percent sign at the front of `bs`. -/
def Directive.read (bs : Bytes) : Directive × Bytes :=
  let (source, bs) := Source.read bs
  let flags := (bs.takeWhile fun b => (Flag.ofByte? b).isSome).filterMap Flag.ofByte?
  let bs := bs.dropWhile fun b => (Flag.ofByte? b).isSome
  let (width, bs) := Amount.read bs
  let (precision, bs) := readPrecision bs
  let (length, bs) := Length.read bs
  let (conversion, bs) := Conversion.read bs
  (⟨source, flags, width, precision, length, conversion⟩, bs)

theorem length_dropWhile_le (p : UInt8 → Bool) (bs : Bytes) : (bs.dropWhile p).length ≤ bs.length :=
  (List.dropWhile_suffix p).length_le

theorem length_readNumber_le (bs : Bytes) : (readNumber bs).2.length ≤ bs.length := by
  unfold readNumber
  split
  · exact Nat.le_refl _
  · exact length_dropWhile_le _ _

theorem length_sourceRead_le (bs : Bytes) : (Source.read bs).2.length ≤ bs.length := by
  have h := length_readNumber_le bs
  unfold Source.read
  split
  · next h' =>
    rw [h'] at h
    split
    · exact Nat.le_of_succ_le h
    · exact Nat.le_refl _
  · exact Nat.le_refl _

theorem length_readStarred_le (bs : Bytes) : (Source.readStarred bs).2.length ≤ bs.length := by
  unfold Source.readStarred
  split
  · split
    · exact length_sourceRead_le bs
    · exact Nat.le_refl _
  · exact Nat.le_refl _

theorem length_amountRead_le (bs : Bytes) : (Amount.read bs).2.length ≤ bs.length := by
  unfold Amount.read
  split
  · next b rest =>
    split
    · exact Nat.le_succ_of_le (length_readStarred_le rest)
    · exact length_readNumber_le _
  · exact Nat.le_refl _

theorem length_readPrecision_le (bs : Bytes) : (readPrecision bs).2.length ≤ bs.length := by
  unfold readPrecision
  split
  · next b rest =>
    split
    · exact Nat.le_succ_of_le (length_amountRead_le rest)
    · exact Nat.le_refl _
  · exact Nat.le_refl _

theorem length_lengthRead_le (bs : Bytes) : (Length.read bs).2.length ≤ bs.length := by
  rw [Length.read, List.length_drop]
  exact Nat.sub_le _ _

theorem length_conversionRead_le (bs : Bytes) : (Conversion.read bs).2.length ≤ bs.length := by
  unfold Conversion.read
  split
  · exact Nat.le_succ _
  · exact Nat.le_refl _

theorem length_directiveRead_le (bs : Bytes) : (Directive.read bs).2.length ≤ bs.length :=
  Nat.le_trans (length_conversionRead_le _) <| Nat.le_trans (length_lengthRead_le _) <|
    Nat.le_trans (length_readPrecision_le _) <| Nat.le_trans (length_amountRead_le _) <|
      Nat.le_trans (length_dropWhile_le _ _) (length_sourceRead_le bs)

/-! ## Formats -/

inductive Segment where
  | byte (b : UInt8)
  | directive (d : Directive)
  deriving DecidableEq

def Segment.spell : Segment → Bytes
  | .byte b => [b]
  | .directive d => d.spell

def segments (format : Bytes) : List Segment :=
  match format with
  | [] => []
  | b :: rest =>
    if b = '%'.toUInt8 then .directive (Directive.read rest).1 :: segments (Directive.read rest).2
    else .byte b :: segments rest
termination_by format.length
decreasing_by
  · exact Nat.lt_succ_of_le (length_directiveRead_le rest)
  · exact Nat.lt_succ_self _

end LogRelay.Format
