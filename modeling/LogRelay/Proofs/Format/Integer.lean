import LogRelay.Proofs.Format.Written

/-!
# Integers that are shown

What a reader can tell of an integer in a message: it is blanks, sign, mark of the base, zeros and digits, and
`IntegerParts.Shows` says which of these stand there for a number, without a look at how they are written. A conversion
of integers shows the number that is left of its word after the length modifier (`exists_shows`).
-/

namespace LogRelay.Format

/-- A conversion of integers: its letter, whether it takes a word as a two's complement number, the base of its digits
and what the flag `#` puts in front of them. -/
structure IntegerConversion where
  letter : Char
  signed : Bool
  base : Nat
  mark : List Char
  deriving DecidableEq

def integerConversions : List IntegerConversion :=
  [⟨'d', true, 10, []⟩, ⟨'i', true, 10, []⟩, ⟨'u', false, 10, []⟩, ⟨'o', false, 8, []⟩, ⟨'x', false, 16, ['0', 'x']⟩,
   ⟨'X', false, 16, ['0', 'X']⟩]

/-- The length modifiers of integers, and how many bits of a word each leaves. -/
def integerModifiers : List (String × Nat) :=
  [("", 32), ("hh", 8), ("h", 16), ("l", 64), ("ll", 64), ("q", 64), ("j", 64), ("z", 64), ("t", 64)]

namespace IntegerConversion

/-- The number that a word stands for where so many bits of it are left. -/
def value (c : IntegerConversion) (bits : Nat) (word : UInt64) : Int :=
  if c.signed then (word.toBitVec.setWidth bits).toInt else (word.toBitVec.setWidth bits).toNat

def shownDigit (c : IntegerConversion) (d : Nat) : Char := if c.letter = 'X' then d.digitChar.toUpper else d.digitChar

end IntegerConversion

/-- An integer in its field. -/
structure IntegerParts where
  /-- Blanks on the left. -/
  before : Nat
  sign : List Char
  mark : List Char
  /-- Zeros that fill the field. -/
  filling : Nat
  digits : List Nat
  /-- Blanks on the right. -/
  after : Nat

namespace IntegerParts

/-- The number without its padding. -/
def core (p : IntegerParts) (c : IntegerConversion) : List Char := p.sign ++ (p.mark ++ p.digits.map c.shownDigit)

def text (p : IntegerParts) (c : IntegerConversion) : List Char :=
  List.replicate p.before ' ' ++ (p.sign ++ (p.mark ++ (List.replicate p.filling '0' ++
    (p.digits.map c.shownDigit ++ List.replicate p.after ' '))))

/-- The number that the digits stand for in a base, zero where there are none. -/
def magnitude (p : IntegerParts) (base : Nat) : Nat := p.digits.foldl (fun v d => v * base + d) 0

/-- The parts are those of the number `v` as a conversion shows it in the style `w`. -/
structure Shows (p : IntegerParts) (w : WrittenStyle) (c : IntegerConversion) (v : Int) : Prop where
  sign : p.sign = if c.signed then if v < 0 then ['-'] else if '+' ∈ w.flags then ['+']
    else if ' ' ∈ w.flags then [' '] else [] else []
  mark : p.mark = if '#' ∈ w.flags ∧ v ≠ 0 then c.mark else []
  inBase : ∀ d ∈ p.digits, d < c.base
  /-- Sign and digits read back. -/
  value : (if p.sign = ['-'] then -(p.magnitude c.base : Int) else p.magnitude c.base) = v
  least : w.places?.getD 1 ≤ p.digits.length
  /-- A digit in front is zero only because of the precision, or because `#` asks for one zero in octal. -/
  leading : ∀ ds, p.digits = 0 :: ds →
    p.digits.length = w.places?.getD 1 ∨ (c.letter = 'o' ∧ '#' ∈ w.flags ∧ ds.head? ≠ some 0)
  octal : c.letter = 'o' → '#' ∈ w.flags → p.digits.head? = some 0
  length : (p.text c).length = max w.columns (p.core c).length
  fillsRight : w.Left → p.before = 0 ∧ p.filling = 0
  fillsZeros : ¬ w.Left → '0' ∈ w.flags → w.places? = none → p.before = 0 ∧ p.after = 0
  fillsLeft : ¬ w.Left → ¬ ('0' ∈ w.flags ∧ w.places? = none) → p.filling = 0 ∧ p.after = 0

end IntegerParts

/-! ## Fields -/

/-- A field that blanks fill is front and body with padding in one of three places. -/
theorem Field.exists_padding {f : Field} (hf : f.filler = some ' '.toUInt8) (s : Style) :
    ∃ before filling after, (f.output s).toBytes = List.replicate before ' '.toUInt8 ++ (f.front ++
        (List.replicate filling '0'.toUInt8 ++ (f.body.toBytes ++ List.replicate after ' '.toUInt8))) ∧
      before + filling + after + (f.front.length + f.body.size) = max s.width (f.front.length + f.body.size) ∧
      (s.left = true → before = 0 ∧ filling = 0) ∧
      (s.left = false → f.fillable = true ∧ s.has .zero = true → before = 0 ∧ after = 0) ∧
      (s.left = false → ¬ (f.fillable = true ∧ s.has .zero = true) → filling = 0 ∧ after = 0) := by
  have hfills : s.width - (f.front.length + f.body.size) + (f.front.length + f.body.size) =
      max s.width (f.front.length + f.body.size) := by omega
  have hapart := Bool.false_ne_true
  unfold Field.output
  cases hl : s.left with
  | true =>
    refine ⟨0, 0, s.width - (f.front.length + f.body.size), ?_, by omega, fun _ => ⟨rfl, rfl⟩,
      fun h => absurd h.symm hapart, fun h => absurd h.symm hapart⟩
    rw [if_pos rfl, hf]
    simp [Chunk.toBytes, Output.toBytes_append]
  | false =>
    rw [if_neg hapart]
    by_cases hz : f.fillable = true ∧ s.has .zero = true
    · refine ⟨0, s.width - (f.front.length + f.body.size), 0, ?_, by omega, fun h => absurd h hapart,
        fun _ _ => ⟨rfl, rfl⟩, fun _ h => absurd hz h⟩
      rw [if_pos (by simpa using hz)]
      simp [Chunk.toBytes]
    · refine ⟨s.width - (f.front.length + f.body.size), 0, 0, ?_, by omega, fun h => absurd h hapart,
        fun _ h => absurd h hz, fun _ _ => ⟨rfl, rfl⟩⟩
      rw [if_neg (by simpa using hz)]
      simp [Chunk.toBytes]

/-! ## Conversions -/

/-- The digits that a style shows of a number. -/
def Style.shownDigits (s : Style) (style : IntegerStyle) (magnitude : Nat) : List Nat :=
  let ds := style.radix.digits magnitude
  padDigits (max (s.precision.getD 1) (if s.has .hash && style.radix = .octal then ds.length + 1 else 0)) ds

theorem digitByte_zero (upper : Bool) : digitByte upper 0 = '0'.toUInt8 := rfl

theorem toBytes_integerDigits (s : Style) (style : IntegerStyle) (magnitude : Nat) :
    (s.integerDigits style magnitude).toBytes = (s.shownDigits style magnitude).map (digitByte style.upper) := by
  rw [Style.shownDigits, padDigits, List.map_append, List.map_replicate, digitByte_zero]
  simp [Style.integerDigits, Chunk.toBytes]

section Digits

variable (s : Style) (style : IntegerStyle) (magnitude : Nat)

theorem lt_base_of_mem_shownDigits : ∀ d ∈ s.shownDigits style magnitude, d < style.radix.base :=
  fun _ hd => lt_base_of_mem_padDigits hd

theorem ofDigits_shownDigits : style.radix.ofDigits (s.shownDigits style magnitude) = magnitude :=
  ofDigits_padDigits _ _ _

theorem least_shownDigits : s.precision.getD 1 ≤ (s.shownDigits style magnitude).length := by
  rw [Style.shownDigits, length_padDigits]
  omega

/-- The first digit is a zero only where the precision asks for as many digits as there are, or as the one zero that
`#` adds in octal. -/
theorem leading_shownDigits {ds : List Nat} (h : s.shownDigits style magnitude = 0 :: ds) :
    (s.shownDigits style magnitude).length = s.precision.getD 1 ∨
      (style.radix = .octal ∧ s.has .hash = true ∧ ds.head? ≠ some 0) := by
  have hhead := style.radix.head?_digits_ne_zero magnitude
  have hlen := length_padDigits (max (s.precision.getD 1)
    (if s.has .hash && style.radix = .octal then (style.radix.digits magnitude).length + 1 else 0))
    (style.radix.digits magnitude)
  rw [← Style.shownDigits] at hlen
  by_cases ho : s.has .hash = true ∧ style.radix = .octal
  · rw [if_pos (by simpa using ho)] at hlen
    by_cases hp : (style.radix.digits magnitude).length + 1 ≤ s.precision.getD 1
    · exact .inl (by omega)
    · -- exactly one zero stands in front of the digits
      refine .inr ⟨ho.2, ho.1, ?_⟩
      have hone : s.shownDigits style magnitude = 0 :: style.radix.digits magnitude := by
        rw [Style.shownDigits, if_pos (by simpa using ho), padDigits, Nat.max_eq_right (by omega),
          Nat.add_sub_cancel_left]
        rfl
      rw [hone] at h
      rwa [← List.tail_eq_of_cons_eq h]
  · rw [if_neg (by simpa using ho)] at hlen
    by_cases hp : (style.radix.digits magnitude).length ≤ s.precision.getD 1
    · exact .inl (by omega)
    · -- no zero stands in front of the digits, and they do not begin with one
      rw [Style.shownDigits, if_neg (by simpa using ho), padDigits, Nat.sub_eq_zero_of_le (by omega)] at h
      rw [show style.radix.digits magnitude = 0 :: ds from h] at hhead
      exact absurd rfl hhead

theorem octal_shownDigits (hr : style.radix = .octal) (hh : s.has .hash = true) :
    (s.shownDigits style magnitude).head? = some 0 := by
  have hpos : 0 < max (s.precision.getD 1) ((style.radix.digits magnitude).length + 1) -
      (style.radix.digits magnitude).length := by omega
  obtain ⟨k, hk⟩ := Nat.exists_eq_succ_of_ne_zero (Nat.pos_iff_ne_zero.1 hpos)
  rw [Style.shownDigits, if_pos (by simp [hr, hh]), padDigits, hk, List.replicate_succ]
  rfl

end Digits

/-- The style of a conversion of integers says of it what its table says. -/
structure IntegerStyle.Writes (style : IntegerStyle) (c : IntegerConversion) : Prop where
  known : (Conversion.integer style, c.letter.toUInt8) ∈ Conversion.known
  signed : style.signed = c.signed
  base : style.radix.base = c.base
  mark : style.mark = c.mark.map Char.toUInt8
  octal : style.radix = .octal ↔ c.letter = 'o'
  digit : ∀ d < c.base, digitByte style.upper d = (c.shownDigit d).toUInt8
  plain : (∀ d < c.base, IsPlain (c.shownDigit d)) ∧ Plain c.mark

theorem exists_writes {c : IntegerConversion} (hc : c ∈ integerConversions) : ∃ style : IntegerStyle, style.Writes c := by
  simp only [integerConversions, List.mem_cons, List.not_mem_nil, or_false] at hc
  rcases hc with rfl | rfl | rfl | rfl | rfl | rfl
  · exact ⟨.d, by decide, rfl, rfl, by decide, by decide, by decide, by decide⟩
  · exact ⟨.i, by decide, rfl, rfl, by decide, by decide, by decide, by decide⟩
  · exact ⟨.u, by decide, rfl, rfl, by decide, by decide, by decide, by decide⟩
  · exact ⟨.o, by decide, rfl, rfl, by decide, by decide, by decide, by decide⟩
  · exact ⟨.x, by decide, rfl, rfl, by decide, by decide, by decide, by decide⟩
  · exact ⟨.X, by decide, rfl, rfl, by decide, by decide, by decide, by decide⟩

theorem exists_length {m : String × Nat} (hm : m ∈ integerModifiers) :
    ∃ length ∈ Length.all, ascii m.1 = length.bytes ∧ length.bits .ordered = m.2 := by
  have key : ∀ m ∈ integerModifiers, ∃ length ∈ Length.all, ascii m.1 = length.bytes ∧ length.bits .ordered = m.2 := by
    decide
  exact key m hm

theorem value_eq {style : IntegerStyle} {c : IntegerConversion} (h : style.Writes c) (bits : Nat) (word : UInt64) :
    style.value bits word = c.value bits word := by
  rw [IntegerStyle.value, IntegerConversion.value, h.signed, BitVec.toInt_setWidth, BitVec.toNat_setWidth]
  rfl

theorem nonneg_value {c : IntegerConversion} (h : c.signed = false) (bits : Nat) (word : UInt64) :
    0 ≤ c.value bits word := by
  rw [IntegerConversion.value, if_neg (by simp [h])]
  exact Int.natCast_nonneg _

section Shown

variable (w : WrittenStyle) (v : Int) {style : IntegerStyle} {c : IntegerConversion}

/-- The sign that a style shows of a number. -/
def shownSign (c : IntegerConversion) : List Char :=
  if c.signed then if v < 0 then ['-'] else if '+' ∈ w.flags then ['+'] else if ' ' ∈ w.flags then [' '] else [] else []

/-- The mark of the base that a style shows of a number. -/
def shownMark (c : IntegerConversion) : List Char := if '#' ∈ w.flags ∧ v ≠ 0 then c.mark else []

theorem shownSign_eq_minus_iff : shownSign w v c = ['-'] ↔ c.signed = true ∧ v < 0 := by
  unfold shownSign
  split_ifs with hs hv <;> simp [*]

theorem front_integer (h : style.Writes c) :
    (w.style.integer style v).front = (shownSign w v c).map Char.toUInt8 ++ (shownMark w v c).map Char.toUInt8 := by
  have hplus : w.style.has .plus = decide ('+' ∈ w.flags) := w.has_eq_decide (by decide) (by decide)
  have hspace : w.style.has .space = decide (' ' ∈ w.flags) := w.has_eq_decide (by decide) (by decide)
  have hhash : w.style.has .hash = decide ('#' ∈ w.flags) := w.has_eq_decide (by decide) (by decide)
  have hmark : w.style.mark style v.natAbs = (shownMark w v c).map Char.toUInt8 := by
    rw [Style.mark, shownMark, hhash, h.mark]
    by_cases hf : '#' ∈ w.flags <;> by_cases hv : v = 0 <;> simp [hf, hv]
  have hsign : (if style.signed then w.style.sign (v < 0) else []) = (shownSign w v c).map Char.toUInt8 := by
    rw [Style.sign, shownSign, h.signed, hplus, hspace]
    by_cases hs : c.signed <;> by_cases hv : v < 0 <;> by_cases hp : '+' ∈ w.flags <;> by_cases hb : ' ' ∈ w.flags <;>
      simp [hs, hv, hp, hb, ascii]
  rw [Style.integer, hsign, hmark]

/-- A number is read back by its sign and its magnitude. -/
theorem signed_natAbs (hv : c.signed = false → 0 ≤ v) :
    (if shownSign w v c = ['-'] then -(v.natAbs : Int) else v.natAbs) = v := by
  by_cases hn : c.signed = true ∧ v < 0
  · rw [if_pos ((shownSign_eq_minus_iff w v).2 hn)]
    omega
  · have hnonneg : 0 ≤ v := by
      by_cases hs : c.signed = true
      · exact not_lt.1 fun hlt => hn ⟨hs, hlt⟩
      · exact hv (Bool.eq_false_iff.2 hs)
    rw [if_neg (mt (shownSign_eq_minus_iff w v).1 hn)]
    exact Int.natAbs_of_nonneg hnonneg

/-- What a conversion of integers writes shows its number. -/
theorem exists_shows (h : style.Writes c) (hv : c.signed = false → 0 ≤ v) :
    ∃ p : IntegerParts, p.Shows w c v ∧
      ((w.style.integer style v).output w.style).toBytes = (p.text c).map Char.toUInt8 := by
  obtain ⟨before, filling, after, hbytes, hsize, hright, hzeros, hleft⟩ :=
    Field.exists_padding (f := w.style.integer style v) rfl w.style
  let digits := w.style.shownDigits style v.natAbs
  have hdigits : ∀ d ∈ digits, d < c.base := by
    rw [← h.base]
    exact lt_base_of_mem_shownDigits w.style style v.natAbs
  have hbody : (w.style.integer style v).body.toBytes = (digits.map c.shownDigit).map Char.toUInt8 := by
    rw [List.map_map]
    exact (toBytes_integerDigits w.style style v.natAbs).trans (List.map_congr_left fun d hd => h.digit d (hdigits d hd))
  have hzero : w.style.has .zero = true ↔ '0' ∈ w.flags := w.has_iff (by decide) (by decide)
  have hhash : w.style.has .hash = true ↔ '#' ∈ w.flags := w.has_iff (by decide) (by decide)
  have hfill : (w.style.integer style v).fillable = true ∧ w.style.has .zero = true ↔
      '0' ∈ w.flags ∧ w.places? = none := by
    rw [hzero, and_comm]
    exact and_congr_right fun _ => Option.isNone_iff_eq_none
  have hleftward : w.style.left = true ↔ w.Left := decide_eq_true_iff
  refine ⟨⟨before, shownSign w v c, shownMark w v c, filling, digits, after⟩,
    { sign := rfl, mark := rfl, inBase := hdigits, value := ?_, least := least_shownDigits w.style style v.natAbs
      leading := fun ds hds => ?_, octal := fun ho hf => ?_, length := ?_
      fillsRight := fun hl => hright (hleftward.2 hl)
      fillsZeros := fun hl hz hp => hzeros (Bool.eq_false_iff.2 (hl ∘ hleftward.1)) (hfill.2 ⟨hz, hp⟩)
      fillsLeft := fun hl hn => hleft (Bool.eq_false_iff.2 (hl ∘ hleftward.1)) (hn ∘ hfill.1) }, ?_⟩
  · have hmagnitude : digits.foldl (fun v d => v * c.base + d) 0 = v.natAbs := by
      rw [← h.base]
      exact ofDigits_shownDigits w.style style v.natAbs
    show (if shownSign w v c = ['-'] then -((digits.foldl (fun v d => v * c.base + d) 0 : Nat) : Int)
      else (digits.foldl (fun v d => v * c.base + d) 0 : Nat)) = v
    rw [hmagnitude]
    exact signed_natAbs w v hv
  · rcases leading_shownDigits w.style style v.natAbs hds with hp | ⟨ho, hh, hhead⟩
    · exact .inl hp
    · exact .inr ⟨h.octal.1 ho, hhash.1 hh, hhead⟩
  · exact octal_shownDigits w.style style v.natAbs (h.octal.2 ho) (hhash.2 hf)
  · have hfront := congrArg List.length (front_integer w v h)
    have hcore := congrArg List.length hbody
    rw [Output.length_toBytes] at hcore
    simp only [List.length_append, List.length_map] at hfront hcore
    rw [hfront, hcore] at hsize
    simp only [IntegerParts.text, IntegerParts.core, List.length_append, List.length_replicate, List.length_map]
    rw [show w.style.width = w.columns from rfl] at hsize
    omega
  · rw [hbytes, front_integer w v h, hbody]
    simp only [IntegerParts.text, List.map_append, List.map_replicate, List.append_assoc]

end Shown

namespace IntegerParts

variable {p : IntegerParts} {w : WrittenStyle} {c : IntegerConversion} {v : Int}

theorem Shows.plain {style : IntegerStyle} (h : p.Shows w c v) (hc : style.Writes c) : Plain (p.text c) := by
  have hsign : Plain p.sign := by
    rw [h.sign]
    split_ifs <;> decide
  have hmark : Plain p.mark := by
    rw [h.mark]
    split
    · exact hc.plain.2
    · decide
  have hdigits : Plain (p.digits.map c.shownDigit) := by
    intro ch hch
    obtain ⟨d, hd, rfl⟩ := List.mem_map.1 hch
    exact hc.plain.1 d (h.inBase d hd)
  simp only [text, plain_append]
  exact ⟨plain_replicate _ (by decide), hsign, hmark, plain_replicate _ (by decide), hdigits,
    plain_replicate _ (by decide)⟩

/-- An integer is at least as long as its width and its precision ask for. -/
theorem Shows.amounts_le (h : p.Shows w c v) :
    w.width.value ≤ (p.text c).length ∧ ∀ a, w.precision = some a → a.value ≤ (p.text c).length := by
  have hcolumns : w.columns ≤ (p.text c).length := by
    rw [h.length]
    exact Nat.le_max_left _ _
  have hdigits : p.digits.length ≤ (p.text c).length := by
    simp only [text, List.length_append, List.length_map]
    omega
  refine ⟨?_, fun a => w.value_le_of_places fun places hp => ?_⟩
  · rw [WrittenStyle.columns] at hcolumns
    omega
  · have hleast := h.least
    rw [hp, Option.getD_some] at hleast
    exact hleast.trans hdigits

end IntegerParts

/-- A format of one conversion of integers shows the number that its modifier leaves of the word. -/
theorem render_integer (w : WrittenStyle) {m : String × Nat} (hm : m ∈ integerModifiers) {c : IntegerConversion}
    (hc : c ∈ integerConversions) (word : UInt64) :
    ∃ p : IntegerParts, p.Shows w c (c.value m.2 word) ∧ Plain (p.text c) ∧
      ((p.text c).length ≤ 16383 →
        render (w.format m.1 c.letter) (w.args ++ [.word word]) = (p.text c).map Char.toUInt8) := by
  obtain ⟨length, hl, hmodifier, hbits⟩ := exists_length hm
  obtain ⟨style, hs⟩ := exists_writes hc
  obtain ⟨p, hp, hbytes⟩ := exists_shows w (c.value m.2 word) hs fun h => nonneg_value h m.2 word
  refine ⟨p, hp, hp.plain hs, fun hfits => ?_⟩
  obtain ⟨hwidth, hprecision⟩ := hp.amounts_le
  have hmax : (p.text c).length ≤ (maxNumber : Int) := Int.ofNat_le.2 (Nat.le_trans hfits (by decide))
  have hturn : (Conversion.integer style).turn length = .onward := by cases length <;> rfl
  rw [← hbytes]
  refine w.render_format hmodifier hl hs.known (by omega) (fun a ha => (hprecision a ha).trans hmax) hturn rfl nofun ?_
  show Except.ok (w.style.integer style (style.value (length.bits .ordered) word)) = _
  rw [hbits, ← value_eq hs]

/-- A format of one conversion of integers has no NUL in it. -/
theorem zero_not_mem_integerFormat (w : WrittenStyle) {m : String × Nat} (hm : m ∈ integerModifiers)
    {c : IntegerConversion} (hc : c ∈ integerConversions) : 0 ∉ w.format m.1 c.letter := by
  obtain ⟨length, hl, hmodifier, -⟩ := exists_length hm
  obtain ⟨style, hs⟩ := exists_writes hc
  exact fun h0 => (w.plain_format hmodifier hl hs.known 0 h0).1 rfl

end LogRelay.Format
