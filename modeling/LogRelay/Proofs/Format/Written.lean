import LogRelay.Proofs.Format.Render
import LogRelay.Proofs.Numeral
import Mathlib.Data.List.Basic
import Mathlib.Data.List.TakeWhile

/-!
# Conversions as they are written

A caller writes a conversion as a percent sign, flags, width, precision, length modifier and letter, where width and
precision are digits or a star that stands for an argument. `WrittenStyle` is what stands before the modifier, and says
in its own words which width, side and precision it asks for. A format of one such conversion is read as the directive
that it spells (`segments_format`) and renders to the field that its conversion makes in that style (`render_format`).
-/

namespace LogRelay.Format

/-- A character that is its own byte, and not the one that ends a text. -/
def IsPlain (c : Char) : Prop := c ≠ '\x00' ∧ c.toNat < 128

instance : DecidablePred IsPlain := fun _ => inferInstanceAs (Decidable (_ ∧ _))

def Plain (cs : List Char) : Prop := ∀ c ∈ cs, IsPlain c

instance : DecidablePred Plain := fun cs => List.decidableBAll IsPlain cs

theorem plain_append {cs ds : List Char} : Plain (cs ++ ds) ↔ Plain cs ∧ Plain ds := List.forall_mem_append

theorem plain_cons {c : Char} {cs : List Char} : Plain (c :: cs) ↔ IsPlain c ∧ Plain cs := List.forall_mem_cons

theorem plain_replicate (n : Nat) {c : Char} (hc : IsPlain c) : Plain (List.replicate n c) :=
  fun _ h => List.eq_of_mem_replicate h ▸ hc

/-- A width or a precision as it is written: in digits, or as a star, whose value is an argument of its own. -/
inductive WrittenAmount where
  | digits (ds : List (Fin 10))
  | star (arg : UInt64)

namespace WrittenAmount

def text : WrittenAmount → List Char
  | digits ds => ds.map fun d => d.val.digitChar
  | star _ => ['*']

def args : WrittenAmount → List Argument
  | digits _ => []
  | star arg => [.word arg]

/-- No digits are zero, and an argument counts by its lowest 32 bits, as a two's complement number. -/
def value : WrittenAmount → Int
  | digits ds => Radix.decimal.ofDigits (ds.map Fin.val)
  | star arg => (arg.toBitVec.setWidth 32).toInt

/-- The amount that is read, if there is something to read. -/
def amount? : WrittenAmount → Option Amount
  | digits [] => none
  | digits ds => some (.ofNumber (min (maxNumber + 1) (Radix.decimal.ofDigits (ds.map Fin.val))))
  | star _ => some (.argument .next)

end WrittenAmount

def flagChars : List Char := ['-', '+', ' ', '#', '0', '\'']

/-- What is written of a conversion before its length modifier. A width does not begin with a zero, which would be one
more flag. -/
structure WrittenStyle where
  flags : List Char
  width : WrittenAmount
  precision : Option WrittenAmount
  flags_known : ∀ f ∈ flags, f ∈ flagChars
  width_bare : width.text.head? ≠ some '0'

namespace WrittenStyle

def precisionText (w : WrittenStyle) : List Char := (w.precision.map fun p => '.' :: p.text).getD []

/-- The text of the conversion with a length modifier and a letter. -/
def text (w : WrittenStyle) (modifier : String) (letter : Char) : List Char :=
  '%' :: (w.flags ++ (w.width.text ++ (w.precisionText ++ (modifier.toList ++ [letter]))))

def format (w : WrittenStyle) (modifier : String) (letter : Char) : Bytes := (w.text modifier letter).map Char.toUInt8

/-- The arguments that the stars stand for. -/
def args (w : WrittenStyle) : List Argument := w.width.args ++ (w.precision.map WrittenAmount.args).getD []

/-- How wide the field is to be. -/
def columns (w : WrittenStyle) : Nat := w.width.value.natAbs

/-- Whether the field is filled on the right: a negative width asks for that as a minus does. -/
def Left (w : WrittenStyle) : Prop := '-' ∈ w.flags ∨ w.width.value < 0

instance (w : WrittenStyle) : Decidable w.Left := inferInstanceAs (Decidable (_ ∨ _))

/-- The precision, where there is one: a negative one counts as none. -/
def places? (w : WrittenStyle) : Option Nat :=
  w.precision.bind fun p => if p.value < 0 then none else some p.value.toNat

/-- The flags that are read. -/
def readFlags (w : WrittenStyle) : List Flag := (w.flags.map Char.toUInt8).filterMap Flag.ofByte?

def directive (w : WrittenStyle) (length : Length) (conversion : Conversion) : Directive :=
  ⟨.next, w.readFlags, w.width.amount?, w.precision.map fun p => p.amount?.getD (.given 0), length, conversion⟩

/-- The style that is in force. -/
def style (w : WrittenStyle) : Style := ⟨w.readFlags, w.Left, w.columns, w.places?, false⟩

end WrittenStyle

namespace WrittenStyle

variable (w : WrittenStyle) (length : Length) (conversion : Conversion)

@[simp] theorem source_directive : (w.directive length conversion).source = .next := rfl

@[simp] theorem width_directive : (w.directive length conversion).width = w.width.amount? := rfl

@[simp] theorem precision_directive :
    (w.directive length conversion).precision = w.precision.map fun p => p.amount?.getD (.given 0) := rfl

@[simp] theorem length_directive : (w.directive length conversion).length = length := rfl

@[simp] theorem conversion_directive : (w.directive length conversion).conversion = conversion := rfl

end WrittenStyle

/-! ## Reading -/

theorem isDigit_digitChar (d : Fin 10) : isDigit d.val.digitChar.toUInt8 = true := by
  revert d
  decide

theorem toNat_digitChar (d : Fin 10) : (d.val.digitChar.toUInt8 - '0'.toUInt8).toNat = d := by
  revert d
  decide

/-- What is read while a test holds ends where the next byte fails it. -/
theorem span_append {p : UInt8 → Bool} {bs rest : Bytes} (hin : ∀ b ∈ bs, p b = true)
    (hout : ∀ b, rest.head? = some b → p b = false) :
    (bs ++ rest).takeWhile p = bs ∧ (bs ++ rest).dropWhile p = rest := by
  rw [List.takeWhile_append_of_pos hin, List.dropWhile_append_of_pos hin]
  cases rest with
  | nil => simp
  | cons b rest => simp [hout b rfl]

theorem readNumber_of_stop {bs : Bytes} (h : ∀ b, bs.head? = some b → isDigit b = false) :
    readNumber bs = (none, bs) := by
  have htake : bs.takeWhile isDigit = [] := And.left (span_append (List.forall_mem_nil _) h)
  rw [readNumber, htake]

theorem readNumber_digits {ds : List (Fin 10)} (hne : ds ≠ []) {rest : Bytes}
    (h : ∀ b, rest.head? = some b → isDigit b = false) :
    readNumber ((WrittenAmount.digits ds).text.map Char.toUInt8 ++ rest) =
      (some (min (maxNumber + 1) (Radix.decimal.ofDigits (ds.map Fin.val))), rest) := by
  have htext : (WrittenAmount.digits ds).text.map Char.toUInt8 = ds.map fun d => d.val.digitChar.toUInt8 := by
    rw [WrittenAmount.text, List.map_map]
    rfl
  have hin : ∀ b ∈ ds.map (fun d => d.val.digitChar.toUInt8), isDigit b = true := by
    intro b hb
    obtain ⟨d, -, rfl⟩ := List.mem_map.1 hb
    exact isDigit_digitChar d
  have hvalue : (ds.map fun d => d.val.digitChar.toUInt8).map (fun b => (b - '0'.toUInt8).toNat) = ds.map Fin.val := by
    rw [List.map_map]
    exact List.map_congr_left fun d _ => toNat_digitChar d
  obtain ⟨htake, hdrop⟩ := span_append hin h
  rw [htext, readNumber, htake, hdrop]
  split
  · next hnil => exact absurd (List.map_eq_nil_iff.1 hnil) hne
  · rw [hvalue, Radix.ofDigitsUpTo_eq]

/-- A format without a dollar sign names no position. -/
theorem sourceRead_eq_next {bs : Bytes} (h : '$'.toUInt8 ∉ bs) : Source.read bs = (.next, bs) := by
  have hsuffix : (readNumber bs).2 <:+ bs := by
    unfold readNumber
    split
    · exact List.suffix_refl bs
    · exact List.dropWhile_suffix isDigit
  unfold Source.read
  split
  · next index b rest hr =>
    rw [hr] at hsuffix
    rw [if_neg]
    rintro rfl
    exact h (hsuffix.subset (List.mem_cons_self ..))
  · rfl

/-- A byte that ends a width or a precision. -/
def endsAmount (b : UInt8) : Bool := !isDigit b && b ≠ '*'.toUInt8

theorem amountRead_text (a : WrittenAmount) {rest : Bytes} (h : ∀ b, rest.head? = some b → endsAmount b = true) :
    Amount.read (a.text.map Char.toUInt8 ++ rest) = (a.amount?, rest) := by
  have hstop : ∀ b, rest.head? = some b → isDigit b = false := fun b hb => by
    have := h b hb
    simp only [endsAmount, Bool.and_eq_true, Bool.not_eq_true'] at this
    exact this.1
  cases a with
  | digits ds =>
    have hnumber {bs : Bytes} (hstar : ∀ b, bs.head? = some b → b ≠ '*'.toUInt8) :
        Amount.read bs = ((readNumber bs).1.map .ofNumber, (readNumber bs).2) := by
      cases bs with
      | nil => rfl
      | cons b bs => rw [Amount.read, if_neg (hstar b rfl)]
    cases ds with
    | nil =>
      rw [show (WrittenAmount.digits []).text.map Char.toUInt8 ++ rest = rest from rfl, hnumber,
        readNumber_of_stop hstop]
      · rfl
      · intro b hb
        have := h b hb
        simp only [endsAmount, Bool.and_eq_true, decide_eq_true_eq] at this
        exact this.2
    | cons d ds =>
      rw [hnumber, readNumber_digits (List.cons_ne_nil d ds) hstop]
      · rfl
      · rintro b hb rfl
        have hd := isDigit_digitChar d
        rw [show d.val.digitChar.toUInt8 = '*'.toUInt8 from Option.some.inj hb] at hd
        exact absurd hd (by decide)
  | star arg =>
    show Amount.read ('*'.toUInt8 :: rest) = _
    rw [Amount.read, if_pos rfl, Source.readStarred, readNumber_of_stop hstop]
    rfl

/-- The length modifiers and the letters of the conversions cannot be taken for anything else that may stand before
them, nor a letter for more of the modifier. -/
theorem lengthRead_bytes {length : Length} {conversion : Conversion} {letter : UInt8} (hl : length ∈ Length.all)
    (hc : (conversion, letter) ∈ Conversion.known) :
    Length.read (length.bytes ++ [letter]) = (length, [letter]) ∧ Conversion.ofByte letter = conversion ∧
      (∀ b ∈ length.bytes ++ [letter], b ≠ 0 ∧ b ≠ '$'.toUInt8) ∧
      ∀ b, (length.bytes ++ [letter]).head? = some b →
        endsAmount b = true ∧ (Flag.ofByte? b).isSome = false ∧ b ≠ '.'.toUInt8 := by
  have key : ∀ length ∈ Length.all, ∀ c ∈ Conversion.known,
      Length.read (length.bytes ++ [c.2]) = (length, [c.2]) ∧ Conversion.ofByte c.2 = c.1 ∧
        ((length.bytes ++ [c.2]).all fun b => b ≠ 0 && b ≠ '$'.toUInt8) = true ∧
        ((length.bytes ++ [c.2]).head?.all fun b =>
          endsAmount b && !(Flag.ofByte? b).isSome && b ≠ '.'.toUInt8) = true := by
    decide
  obtain ⟨hread, hletter, hbytes, hhead⟩ := key length hl (conversion, letter) hc
  refine ⟨hread, hletter, fun b hb => ?_, fun b hb => ?_⟩
  · simpa using List.all_eq_true.1 hbytes b hb
  · simpa [and_assoc] using (Option.all_eq_true _ _).1 hhead b hb

namespace WrittenStyle

variable (w : WrittenStyle) {length : Length} {modifier : String} {conversion : Conversion} {letter : Char}

theorem format_eq :
    w.format modifier letter = '%'.toUInt8 :: (w.flags.map Char.toUInt8 ++ (w.width.text.map Char.toUInt8 ++
      (w.precisionText.map Char.toUInt8 ++ (ascii modifier ++ [letter.toUInt8])))) := by
  simp [format, text, ascii]

theorem plain_amount (a : WrittenAmount) : ∀ b ∈ a.text.map Char.toUInt8, b ≠ 0 ∧ b ≠ '$'.toUInt8 := by
  intro b hb
  obtain ⟨c, hc, rfl⟩ := List.mem_map.1 hb
  cases a with
  | digits ds =>
    obtain ⟨d, -, rfl⟩ := List.mem_map.1 hc
    have key : ∀ d : Fin 10, d.val.digitChar.toUInt8 ≠ 0 ∧ d.val.digitChar.toUInt8 ≠ '$'.toUInt8 := by decide
    exact key d
  | star arg =>
    rw [List.mem_singleton.1 hc]
    decide

/-- Neither the end of a text nor the mark of a position occurs. -/
theorem plain_format (hm : ascii modifier = length.bytes) (hl : length ∈ Length.all)
    (hc : (conversion, letter.toUInt8) ∈ Conversion.known) :
    ∀ b ∈ w.format modifier letter, b ≠ 0 ∧ b ≠ '$'.toUInt8 := by
  have hflags : ∀ b ∈ w.flags.map Char.toUInt8, b ≠ 0 ∧ b ≠ '$'.toUInt8 := by
    intro b hb
    obtain ⟨f, hf, rfl⟩ := List.mem_map.1 hb
    have key : flagChars.Forall fun f => f.toUInt8 ≠ 0 ∧ f.toUInt8 ≠ '$'.toUInt8 := by decide
    exact List.forall_iff_forall_mem.1 key f (w.flags_known f hf)
  have hprecision : ∀ b ∈ w.precisionText.map Char.toUInt8, b ≠ 0 ∧ b ≠ '$'.toUInt8 := by
    unfold precisionText
    cases w.precision with
    | none => exact fun b hb => nomatch hb
    | some p =>
      refine List.forall_mem_cons.2 ⟨by decide, plain_amount p⟩
  have htail := (lengthRead_bytes hl hc).2.2.1
  rw [← hm] at htail
  rw [format_eq]
  refine List.forall_mem_cons.2 ⟨by decide, ?_⟩
  exact List.forall_mem_append.2 ⟨hflags, List.forall_mem_append.2 ⟨plain_amount w.width,
    List.forall_mem_append.2 ⟨hprecision, htail⟩⟩⟩

theorem readPrecision_text {rest : Bytes} (h : ∀ b, rest.head? = some b → endsAmount b = true ∧ b ≠ '.'.toUInt8) :
    readPrecision (w.precisionText.map Char.toUInt8 ++ rest) =
      (w.precision.map fun p => p.amount?.getD (.given 0), rest) := by
  unfold precisionText
  cases w.precision with
  | none =>
    cases rest with
    | nil => rfl
    | cons b rest =>
      show readPrecision (b :: rest) = _
      rw [readPrecision, if_neg (h b rfl).2]
      rfl
  | some p =>
    show readPrecision ('.'.toUInt8 :: (p.text.map Char.toUInt8 ++ rest)) = _
    rw [readPrecision, if_pos rfl, amountRead_text p fun b hb => (h b hb).1]
    rfl

/-- Where the flags end, no flag follows. -/
theorem notFlag_after {rest : Bytes} (h : ∀ b, rest.head? = some b → (Flag.ofByte? b).isSome = false) :
    ∀ b, (w.width.text.map Char.toUInt8 ++ (w.precisionText.map Char.toUInt8 ++ rest)).head? = some b →
      (Flag.ofByte? b).isSome = false := by
  have hbare := w.width_bare
  intro b hb
  unfold precisionText at hb
  cases hw : w.width with
  | star arg =>
    rw [hw] at hb
    obtain rfl : '*'.toUInt8 = b := Option.some.inj hb
    decide
  | digits ds =>
    rw [hw] at hb hbare
    cases ds with
    | cons d ds =>
      obtain rfl : d.val.digitChar.toUInt8 = b := Option.some.inj hb
      have key : ∀ d : Fin 10, d.val.digitChar ≠ '0' → (Flag.ofByte? d.val.digitChar.toUInt8).isSome = false := by
        decide
      exact key d fun h0 => hbare (congrArg some h0)
    | nil =>
      cases hp : w.precision with
      | none =>
        rw [hp] at hb
        exact h b hb
      | some p =>
        rw [hp] at hb
        obtain rfl : '.'.toUInt8 = b := Option.some.inj hb
        decide

theorem endsAmount_after {rest : Bytes} (h : ∀ b, rest.head? = some b → endsAmount b = true) :
    ∀ b, (w.precisionText.map Char.toUInt8 ++ rest).head? = some b → endsAmount b = true := by
  intro b hb
  unfold precisionText at hb
  cases hp : w.precision with
  | none =>
    rw [hp] at hb
    exact h b hb
  | some p =>
    rw [hp] at hb
    obtain rfl : '.'.toUInt8 = b := Option.some.inj hb
    decide

/-- A written conversion is read as its directive. -/
theorem directiveRead_format (hm : ascii modifier = length.bytes) (hl : length ∈ Length.all)
    (hc : (conversion, letter.toUInt8) ∈ Conversion.known) :
    Directive.read (w.format modifier letter).tail = (w.directive length conversion, []) := by
  obtain ⟨hlength, hletter, -, hhead⟩ := lengthRead_bytes hl hc
  have hposition : '$'.toUInt8 ∉ (w.format modifier letter).tail := fun hd =>
    (w.plain_format hm hl hc _ (List.mem_of_mem_tail hd)).2 rfl
  have hflags : ∀ b ∈ w.flags.map Char.toUInt8, (Flag.ofByte? b).isSome = true := by
    intro b hb
    obtain ⟨f, hf, rfl⟩ := List.mem_map.1 hb
    have key : flagChars.Forall fun f => (Flag.ofByte? f.toUInt8).isSome = true := by decide
    exact List.forall_iff_forall_mem.1 key f (w.flags_known f hf)
  rw [format_eq, List.tail_cons, hm] at hposition ⊢
  obtain ⟨htake, hdrop⟩ := span_append hflags (w.notFlag_after fun b hb => (hhead b hb).2.1)
  simp only [Directive.read, sourceRead_eq_next hposition, htake, hdrop,
    amountRead_text w.width (w.endsAmount_after fun b hb => (hhead b hb).1),
    w.readPrecision_text fun b hb => ⟨(hhead b hb).1, (hhead b hb).2.2⟩, hlength, Conversion.read, hletter]
  rfl

theorem segments_format (hm : ascii modifier = length.bytes) (hl : length ∈ Length.all)
    (hc : (conversion, letter.toUInt8) ∈ Conversion.known) :
    segments (w.format modifier letter) = [.directive (w.directive length conversion)] := by
  have hread := w.directiveRead_format hm hl hc
  rw [format_eq, List.tail_cons] at hread
  rw [format_eq, segments, if_pos rfl, hread, segments_nil]

end WrittenStyle

/-! ## Rendering -/

theorem ofNumber_min {n : Nat} (h : n ≤ maxNumber) : Amount.ofNumber (min (maxNumber + 1) n) = .given n := by
  rw [Nat.min_eq_right (by omega), Amount.ofNumber, if_pos h]

namespace WrittenAmount

/-- A number in digits, where there are any, is read as it is unless it is too large to count. -/
theorem amount?_cons {d : Fin 10} {ds : List (Fin 10)} (h : (digits (d :: ds)).value ≤ maxNumber) :
    (digits (d :: ds)).amount? = some (.given (Radix.decimal.ofDigits ((d :: ds).map Fin.val))) := by
  rw [amount?, ofNumber_min (Int.ofNat_le.1 h)]
  nofun

theorem toInt_word (arg : UInt64) : (Argument.word arg).toInt = (arg.toBitVec.setWidth 32).toInt :=
  (BitVec.toInt_setWidth arg.toBitVec).symm

/-- What an amount comes to in a format that is taken in order. -/
theorem amount?_taken (a : WrittenAmount) (h : a.value ≤ maxNumber) {as : Arguments} {rest : List Argument}
    (hleft : as.left = a.args ++ rest) :
    ∃ as', as.amount? .ordered a.amount? = (a.amount?.map fun _ => a.value, as') ∧ as'.left = rest := by
  cases a with
  | digits ds =>
    refine ⟨as, ?_, hleft⟩
    cases ds with
    | nil => rfl
    | cons d ds =>
      rw [amount?_cons h]
      rfl
  | star arg =>
    have hleft : as.left = .word arg :: rest := hleft
    have hfirst : first .word as.left = .word arg := by rw [hleft]; rfl
    refine ⟨(as.next .word).2, ?_, ?_⟩
    · show (some (first .word as.left).toInt, (as.next .word).2) = (some (arg.toBitVec.setWidth 32).toInt, _)
      rw [hfirst, toInt_word]
    · show others .word as.left = rest
      rw [hleft]
      rfl

theorem turn_amount? (a : WrittenAmount) (h : a.value ≤ maxNumber) : (a.amount?.map Amount.turn).getD .onward = .onward := by
  cases a with
  | digits ds =>
    cases ds with
    | nil => rfl
    | cons d ds =>
      rw [amount?_cons h]
      rfl
  | star arg => rfl

theorem value_of_amount?_none {a : WrittenAmount} (h : a.amount? = none) : a.value = 0 := by
  cases a with
  | digits ds =>
    cases ds with
    | nil => rfl
    | cons d ds => exact nomatch h
  | star arg => exact nomatch h

end WrittenAmount

namespace WrittenStyle

variable (w : WrittenStyle) {length : Length} {modifier : String} {conversion : Conversion} {letter : Char}

theorem has_iff {f : Flag} {c : Char} (hc : c ∈ flagChars) (hf : Flag.ofByte? c.toUInt8 = some f) :
    w.style.has f = true ↔ c ∈ w.flags := by
  have key : flagChars.Forall fun c => flagChars.Forall fun c' =>
      Flag.ofByte? c'.toUInt8 = Flag.ofByte? c.toUInt8 → c' = c := by decide
  show w.readFlags.contains f = true ↔ _
  rw [List.contains_iff_mem, readFlags, List.mem_filterMap]
  constructor
  · rintro ⟨b, hb, hbf⟩
    obtain ⟨c', hc', rfl⟩ := List.mem_map.1 hb
    have hone := List.forall_iff_forall_mem.1 (List.forall_iff_forall_mem.1 key c hc) c' (w.flags_known c' hc')
    rwa [← hone (hbf.trans hf.symm)]
  · exact fun h => ⟨_, List.mem_map_of_mem h, hf⟩

theorem has_eq_decide {f : Flag} {c : Char} (hc : c ∈ flagChars) (hf : Flag.ofByte? c.toUInt8 = some f) :
    w.style.has f = decide (c ∈ w.flags) := by
  rw [Bool.eq_iff_iff, decide_eq_true_iff]
  exact w.has_iff hc hf

theorem style_directive :
    (w.directive length conversion).style .ordered (w.width.amount?.map fun _ => w.width.value)
      (w.precision.map WrittenAmount.value) = w.style := by
  have hleft : (w.readFlags.contains .minus || (w.width.amount?.map fun _ => w.width.value).any (· < 0)) =
      decide w.Left := by
    have hminus : w.readFlags.contains .minus = decide ('-' ∈ w.flags) := w.has_eq_decide (by decide) (by decide)
    rw [hminus]
    show _ = decide ('-' ∈ w.flags ∨ w.width.value < 0)
    rw [Bool.decide_or]
    cases ha : w.width.amount? with
    | none => rw [WrittenAmount.value_of_amount?_none ha]; rfl
    | some a => rfl
  have hwidth : ((w.width.amount?.map fun _ => w.width.value).getD 0).natAbs = w.columns := by
    rw [columns]
    cases ha : w.width.amount? with
    | none => rw [WrittenAmount.value_of_amount?_none ha]; rfl
    | some a => rfl
  have hprecision : ((w.precision.map WrittenAmount.value).bind fun p => if p < 0 then none else some p.toNat) =
      w.places? := by
    rw [places?]
    cases w.precision <;> rfl
  show Style.mk w.readFlags _ _ _ false = _
  rw [style, ← hleft, ← hwidth, ← hprecision]
  rfl

/-- Where the precision that is in force has a bound, so has the written one. -/
theorem value_le_of_places {n : Nat} (h : ∀ places, w.places? = some places → places ≤ n) {a : WrittenAmount}
    (ha : w.precision = some a) : a.value ≤ n := by
  by_cases hn : a.value < 0
  · omega
  · have hplaces : w.places? = some a.value.toNat := by rw [places?, ha, Option.bind_some, if_neg hn]
    have hle := h _ hplaces
    omega

theorem turn_directive (hw : w.width.value ≤ maxNumber) (hp : ∀ p, w.precision = some p → p.value ≤ maxNumber) :
    (w.directive length conversion).turn = conversion.turn length := by
  have hprecision : (((w.precision.map fun p => p.amount?.getD (.given 0))).map Amount.turn).getD .onward = .onward := by
    cases h : w.precision with
    | none => rfl
    | some p =>
      have ht := p.turn_amount? (hp p h)
      rw [Option.map_some, Option.map_some, Option.getD_some]
      cases ha : p.amount? with
      | none => rfl
      | some a => rwa [ha] at ht
  show Turn.orElse .onward (Turn.orElse _ (Turn.orElse _ _)) = _
  rw [width_directive, w.width.turn_amount? hw, precision_directive, hprecision]
  rfl

/-- What the precision comes to, where the width has been taken. -/
theorem precision_taken (hp : ∀ p, w.precision = some p → p.value ≤ maxNumber) {as : Arguments} {rest : List Argument}
    (hleft : as.left = (w.precision.map WrittenAmount.args).getD [] ++ rest) :
    ∃ as', as.amount? .ordered (w.precision.map fun p => p.amount?.getD (.given 0)) =
        (w.precision.map WrittenAmount.value, as') ∧ as'.left = rest := by
  cases h : w.precision with
  | none => exact ⟨as, rfl, by rw [hleft, h]; rfl⟩
  | some p =>
    rw [h] at hleft
    obtain ⟨as', ha, hrest⟩ := p.amount?_taken (hp p h) hleft
    refine ⟨as', ?_, hrest⟩
    cases hn : p.amount? with
    | some a =>
      rw [hn] at ha
      rw [Option.map_some, hn, Option.getD_some, ha]
      rfl
    | none =>
      rw [hn] at ha
      obtain rfl : as = as' := congrArg Prod.snd ha
      rw [Option.map_some, hn, Option.map_some, WrittenAmount.value_of_amount?_none hn]
      rfl

/-- The directive of a written conversion makes one field of its value. -/
theorem output_directive (hw : w.width.value ≤ maxNumber) (hp : ∀ p, w.precision = some p → p.value ≤ maxNumber)
    (uses : List Use) {a : Argument} (hk : conversion.kind? length = some a.kind) (hc : conversion ≠ .count) {f : Field}
    (hf : w.style.field .ordered length conversion a = .ok f) :
    ∃ as, (w.directive length conversion).output .ordered (.ofUses uses (w.args ++ [a])) =
      (f.output w.style, some as) := by
  have hleft : (Arguments.ofUses uses (w.args ++ [a])).left =
      w.width.args ++ ((w.precision.map WrittenAmount.args).getD [] ++ [a]) := by
    show w.args ++ [a] = _
    rw [args, List.append_assoc]
  obtain ⟨as, htake, hleft⟩ := w.width.amount?_taken hw hleft
  obtain ⟨as', htake', hleft⟩ := w.precision_taken hp hleft
  have hnext : (as'.take .ordered a.kind .next).1 = a := by
    show first a.kind as'.left = a
    rw [hleft, first_kind]
  refine ⟨(as'.take .ordered a.kind .next).2, ?_⟩
  rw [← hnext] at hf
  simp only [Directive.output, width_directive, htake, precision_directive, htake', style_directive,
    conversion_directive, hk, source_directive, length_directive, if_neg hc, hf]

/-- A format of one written conversion renders to the field of its value. -/
theorem render_format (hm : ascii modifier = length.bytes) (hl : length ∈ Length.all)
    (hc : (conversion, letter.toUInt8) ∈ Conversion.known) (hw : w.width.value ≤ maxNumber)
    (hp : ∀ p, w.precision = some p → p.value ≤ maxNumber) (ht : conversion.turn length = .onward)
    {a : Argument} (hk : conversion.kind? length = some a.kind) (hcount : conversion ≠ .count) {f : Field}
    (hf : w.style.field .ordered length conversion a = .ok f) :
    render (w.format modifier letter) (w.args ++ [a]) = (f.output w.style).toBytes := by
  have hscheduled : rendered (w.format modifier letter) = [(.ordered, .directive (w.directive length conversion))] := by
    rw [rendered, w.segments_format hm hl hc, scheduled, w.turn_directive hw hp, ht]
    show collectable [(.ordered, .directive (w.directive length conversion))] = _
    unfold collectable
    split <;> rfl
  obtain ⟨as, hout⟩ := w.output_directive hw hp
    (segmentUses [(.ordered, .directive (w.directive length conversion))] 0) hk hcount hf
  rw [render, hscheduled, renderSegments, Segment.output, hout]
  exact List.append_nil _

end WrittenStyle

end LogRelay.Format
