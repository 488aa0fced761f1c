import LogRelay.Proofs.Floating
import LogRelay.Proofs.Format.Written

/-!
# Doubles that are shown

What a reader can tell of a double in a message: it is a sign, digits with a point among them and, in scientific notation,
an exponent. `DecimalParts.Shows` and `ScientificParts.Shows` say that these are the exact value of the double, correctly
rounded, without a look at how the digits are computed.
-/

namespace LogRelay.Format

/-- A decimal numeral: its sign and the digits before and after the point. -/
structure DecimalParts where
  sign : List Char
  whole : List Nat
  places : List Nat

namespace DecimalParts

def digits (p : DecimalParts) : List Nat := p.whole ++ p.places

/-- The point stands only where digits follow it. -/
def text (p : DecimalParts) : List Char :=
  p.sign ++ (p.whole.map Nat.digitChar ++ if p.places = [] then [] else '.' :: p.places.map Nat.digitChar)

/-- The number without its sign. -/
def value (p : DecimalParts) : ℚ := Radix.decimal.ofDigits p.digits / 10 ^ p.places.length

/-- The parts are a numeral with so many places and the sign of `x`. -/
structure Fits (p : DecimalParts) (places : Nat) (x : Binary64) : Prop where
  sign : p.sign = if 2 ^ 63 ≤ x.bits.toNat then ['-'] else []
  decimal : ∀ d ∈ p.digits, d < 10
  count : p.places.length = places
  /-- There is a digit before the point, and a zero in front of others never. -/
  whole : p.whole ≠ [] ∧ (p.whole.head? = some 0 → p.whole.length = 1)

/-- The parts are those of `x` rounded to so many places, a half to the even last digit. -/
structure Shows (p : DecimalParts) (places : Nat) (x : Binary64) : Prop extends p.Fits places x where
  near : |p.value - x.abs| ≤ 1 / 10 ^ places / 2
  tie : |p.value - x.abs| = 1 / 10 ^ places / 2 → ∀ d, p.digits.getLast? = some d → Even d

end DecimalParts

/-- A decimal numeral with an exponent, which has a sign in any case. -/
structure ScientificParts extends DecimalParts where
  exponentSign : Char
  exponentDigits : List Nat

namespace ScientificParts

def text (p : ScientificParts) : List Char :=
  p.toDecimalParts.text ++ 'e' :: p.exponentSign :: p.exponentDigits.map Nat.digitChar

def exponent (p : ScientificParts) : ℤ :=
  if p.exponentSign = '-' then -(Radix.decimal.ofDigits p.exponentDigits : ℤ)
  else Radix.decimal.ofDigits p.exponentDigits

/-- The number without its sign. -/
def value (p : ScientificParts) : ℚ := p.toDecimalParts.value * 10 ^ p.exponent

/-- The parts are a numeral with so many places and an exponent of at least two digits. -/
structure Fits (p : ScientificParts) (places : Nat) (x : Binary64) : Prop extends
    toNumeral : p.toDecimalParts.Fits places x where
  exponentSign : p.exponentSign = '+' ∨ p.exponentSign = '-'
  exponentDecimal : ∀ d ∈ p.exponentDigits, d < 10
  exponentDigits : 2 ≤ p.exponentDigits.length ∧ (p.exponentDigits.head? = some 0 → p.exponentDigits.length = 2)

/-- The parts are those of `x` rounded to `places + 1` significant digits. It is rounded to one of the numbers
`c * 10 ^ (f - places)` of so many digits. -/
structure Shows (p : ScientificParts) (places : Nat) (x : Binary64) : Prop extends p.Fits places x where
  /-- One digit stands before the point, and it is significant. -/
  lead : ∃ d, p.whole = [d] ∧ (d = 0 ↔ x.abs = 0)
  zero : x.abs = 0 → p.value = 0 ∧ p.exponent = 0
  nearest : ∀ (c : ℕ) (f : ℤ), c < 10 ^ (places + 1) → |p.value - x.abs| ≤ |c * 10 ^ (f - places) - x.abs|
  /-- Where another number is as near, the last digit is even; it need not be where a carry has left one digit only. -/
  tie : ∀ (c : ℕ) (f : ℤ), c < 10 ^ (places + 1) → c * 10 ^ (f - places) ≠ p.value →
    |c * 10 ^ (f - places) - x.abs| = |p.value - x.abs| →
      (∀ d, p.digits.getLast? = some d → Even d) ∨ (places = 0 ∧ x.abs < 10 ^ p.exponent)
  /-- The exponent is that of the first digit of `x`, or one more after a carry. -/
  carry : x.abs ≠ 0 → (10 ^ p.exponent ≤ x.abs ∧ x.abs < 10 ^ (p.exponent + 1)) ∨
    (10 ^ (p.exponent - 1) ≤ x.abs ∧ x.abs < 10 ^ p.exponent ∧ p.value = 10 ^ p.exponent)

end ScientificParts

/-! ## Numerals -/

/-- The sign of a double, also of a zero. -/
def shownRealSign (x : Binary64) : List Char := if 2 ^ 63 ≤ x.bits.toNat then ['-'] else []

theorem even_ofDigits {ds : List Nat} {d : Nat} (h : ds.getLast? = some d) :
    Even (Radix.decimal.ofDigits ds) ↔ Even d := by
  obtain ⟨front, rfl⟩ := List.getLast?_eq_some_iff.1 h
  rw [Radix.ofDigits_append_singleton, Nat.even_add, iff_true_left ((by decide : Even Radix.decimal.base).mul_left _)]

theorem map_digitByte {ds : List Nat} (h : ∀ d ∈ ds, d < 10) :
    ds.map (digitByte false) = (ds.map Nat.digitChar).map Char.toUInt8 := by
  have key : ∀ d < 10, digitByte false d = d.digitChar.toUInt8 := by decide
  rw [List.map_map]
  exact List.map_congr_left fun d hd => key d (h d hd)

namespace Notation

/-- The parts of a numeral with a sign. -/
def parts (n : Notation) (sign : List Char) : DecimalParts := ⟨sign, n.whole, n.places ++ List.replicate n.zeros 0⟩

theorem toBytes_output (n : Notation) (sign : List Char) (h : ∀ d ∈ (n.parts sign).digits, d < 10) :
    sign.map Char.toUInt8 ++ (n.output false false).toBytes = (n.parts sign).text.map Char.toUInt8 ++ n.tail := by
  obtain ⟨hwhole, hrest⟩ := List.forall_mem_append.1 h
  obtain ⟨hplaces, -⟩ := List.forall_mem_append.1 hrest
  have hpoint : (if (n.parts sign).places = [] then [] else '.' :: (n.parts sign).places.map Nat.digitChar).map
      Char.toUInt8 = (if false || n.places ≠ [] || n.zeros ≠ 0 then ascii "." else []) ++
        (n.places.map (digitByte false) ++ List.replicate n.zeros '0'.toUInt8) := by
    rw [map_digitByte hplaces]
    by_cases hn : n.places = [] <;> by_cases hz : n.zeros = 0 <;>
      simp [parts, hn, hz, ascii, show Nat.digitChar 0 = '0' from rfl]
  rw [DecimalParts.text, List.map_append, List.map_append, hpoint, ← map_digitByte hwhole]
  simp [output, Chunk.toBytes, parts]

section Scaled

variable (n places zeros : Nat) (tail : Bytes)

theorem digits_ofScaled : (ofScaled n places zeros tail).whole ++ (ofScaled n places zeros tail).places =
    padDigits (places + 1) (Radix.decimal.digits n) := List.take_append_drop _ _

theorem length_places_ofScaled : (ofScaled n places zeros tail).places.length = places := by
  have hlen := length_padDigits (places + 1) (Radix.decimal.digits n)
  rw [ofScaled, List.length_drop]
  omega

/-- A zero stands in front only where the number has no digit there. -/
theorem whole_ofScaled : (ofScaled n places zeros tail).whole ≠ [] ∧
    ((ofScaled n places zeros tail).whole.head? = some 0 → (ofScaled n places zeros tail).whole.length = 1) := by
  have hlen := length_padDigits (places + 1) (Radix.decimal.digits n)
  have hwhole : (ofScaled n places zeros tail).whole.length =
      (padDigits (places + 1) (Radix.decimal.digits n)).length - places := by
    rw [ofScaled, List.length_take]
    omega
  refine ⟨List.length_pos_iff.1 (by omega), fun hzero => ?_⟩
  have hhead : (padDigits (places + 1) (Radix.decimal.digits n)).head? = some 0 := by
    rw [← digits_ofScaled n places zeros tail, List.head?_append, hzero]
    rfl
  have hshort := length_padDigits_of_head? hhead
  omega

/-- The numeral of a scaled number and its zeros. -/
theorem fits_ofScaled (x : Binary64) :
    let p := (ofScaled n places zeros tail).parts (shownRealSign x)
    p.Fits (places + zeros) x ∧ Radix.decimal.ofDigits p.digits = n * 10 ^ zeros := by
  intro p
  have hdigits : p.digits = padDigits (places + 1) (Radix.decimal.digits n) ++ List.replicate zeros 0 := by
    rw [← digits_ofScaled n places zeros tail, List.append_assoc]
    rfl
  refine ⟨⟨rfl, ?_, ?_, whole_ofScaled n places zeros tail⟩, ?_⟩
  · rw [hdigits]
    exact List.forall_mem_append.2 ⟨fun d hd => lt_base_of_mem_padDigits hd,
      fun d hd => List.eq_of_mem_replicate hd ▸ by decide⟩
  · show ((ofScaled n places zeros tail).places ++ List.replicate zeros 0).length = _
    rw [List.length_append, length_places_ofScaled, List.length_replicate]
  · rw [hdigits, Radix.ofDigits_append_replicate_zero, ofDigits_padDigits]
    rfl

end Scaled

end Notation

/-! ## Exponents -/

/-- A numeral with an exponent. -/
def DecimalParts.withExponent (p : DecimalParts) (e : ℤ) : ScientificParts where
  toDecimalParts := p
  exponentSign := if e < 0 then '-' else '+'
  exponentDigits := padDigits 2 (Radix.decimal.digits e.natAbs)

namespace DecimalParts

variable {p : DecimalParts} {places : Nat} {x : Binary64}

theorem exponent_withExponent (e : ℤ) : (p.withExponent e).exponent = e := by
  have hdigits : Radix.decimal.ofDigits (p.withExponent e).exponentDigits = e.natAbs := ofDigits_padDigits _ _ _
  rw [ScientificParts.exponent, hdigits]
  show (if (if e < 0 then '-' else '+') = '-' then _ else _) = e
  by_cases h : e < 0
  · rw [if_pos h, if_pos rfl]
    omega
  · rw [if_neg h, if_neg (by decide)]
    exact Int.natAbs_of_nonneg (Int.not_lt.1 h)

theorem text_withExponent (e : ℤ) :
    (p.withExponent e).text.map Char.toUInt8 = p.text.map Char.toUInt8 ++ exponentTail 'e' 2 e := by
  have hdigits : (padDigits 2 (Radix.decimal.digits e.natAbs)).map (digitByte false) =
      ((p.withExponent e).exponentDigits.map Nat.digitChar).map Char.toUInt8 :=
    map_digitByte fun d hd => lt_base_of_mem_padDigits hd
  rw [ScientificParts.text, List.map_append, List.map_cons, List.map_cons, ← hdigits, exponentTail]
  show _ ++ 'e'.toUInt8 :: (if e < 0 then '-' else '+').toUInt8 :: _ = _
  rw [apply_ite Char.toUInt8]
  rfl

theorem Fits.withExponent (h : p.Fits places x) (e : ℤ) : (p.withExponent e).Fits places x where
  toNumeral := h
  exponentSign := (ite_eq_or_eq _ _ _).symm
  exponentDecimal d hd := lt_base_of_mem_padDigits hd
  exponentDigits := by
    refine ⟨?_, length_padDigits_of_head?⟩
    show 2 ≤ (padDigits 2 _).length
    rw [length_padDigits]
    exact Nat.le_max_left _ _

/-- The value by the digits as one number. -/
theorem Fits.value_withExponent (h : p.Fits places x) (e : ℤ) :
    (p.withExponent e).value = Radix.decimal.ofDigits p.digits * 10 ^ (e - places) := by
  rw [ScientificParts.value, exponent_withExponent, show (p.withExponent e).toDecimalParts = p from rfl, value, h.count,
    zpow_sub₀ (by norm_num), zpow_natCast, div_mul_eq_mul_div, mul_div_assoc]

/-- With so many significant digits, one digit stands before the point. -/
theorem Fits.lead (h : p.Fits places x) (hd : Radix.decimal.ofDigits p.digits < 10 ^ (places + 1)) :
    ∃ d, p.whole = [d] ∧ (d = 0 ↔ Radix.decimal.ofDigits p.digits < 10 ^ places) := by
  obtain ⟨d, ds, hwhole⟩ := List.exists_cons_of_ne_nil h.whole.1
  have hdigits : p.digits = d :: (ds ++ p.places) := by
    rw [digits, hwhole]
    rfl
  have hdecimal := h.decimal
  rw [hdigits] at hdecimal
  have hfirst := Radix.decimal.ofDigits_cons_lt_pow_iff (d := d) (List.forall_mem_cons.1 hdecimal).2
  rw [List.length_append, h.count, ← hdigits, show Radix.decimal.base = 10 from rfl] at hfirst
  obtain rfl : ds = [] := by
    by_contra hne
    have hlonger := List.length_pos_iff.2 hne
    have hpow : 10 ^ (places + 1) ≤ 10 ^ (ds.length + places) := Nat.pow_le_pow_right (by norm_num) (by omega)
    obtain rfl := hfirst.1 (hd.trans_le hpow)
    have hone := h.whole.2 (by rw [hwhole, List.head?_cons])
    rw [hwhole, List.length_cons] at hone
    omega
  rw [List.length_nil, Nat.zero_add] at hfirst
  exact ⟨d, hwhole, hfirst.symm⟩

end DecimalParts

theorem scientificNotation_eq (v : BinaryFraction) (upper : Bool) (places : Nat) :
    scientificNotation v upper places =
      let needed := min places v.scientificPlaces
      .ofScaled (v.scientific needed).1 needed (places - needed)
        (exponentTail (if upper then 'E' else 'e') 2 (v.scientific needed).2) := rfl

/-! ## Both notations -/

section Shown

variable (x : Binary64) (places : Nat)

/-- The numeral of fixed notation has so many places, and its digits are the number in units of the last of them. -/
theorem fits_fixedNotation : let p := (fixedNotation x.magnitude places).parts (shownRealSign x)
    p.Fits places x ∧ Rounds (x.abs * 10 ^ places) (Radix.decimal.ofDigits p.digits) := by
  let needed := min places x.magnitude.scale
  have hscaled := Notation.fits_ofScaled (x.magnitude.fixed needed) needed (places - needed) [] x
  have hrounds := x.magnitude.rounds_fixed places
  rw [x.toRat_magnitude] at hrounds
  rw [Nat.add_sub_cancel' (Nat.min_le_left places _)] at hscaled
  exact ⟨hscaled.1, hscaled.2 ▸ hrounds⟩

theorem exists_shows_fixed : ∃ p : DecimalParts, p.Shows places x ∧
    (shownRealSign x).map Char.toUInt8 ++ ((fixedNotation x.magnitude places).output false false).toBytes =
      p.text.map Char.toUInt8 := by
  obtain ⟨hfits, hrounds⟩ := fits_fixedNotation x places
  have hu : (0 : ℚ) < 10 ^ places := by positivity
  refine ⟨_, { toFits := hfits, near := ?_, tie := fun ht d hd => ?_ }, ?_⟩
  · rw [DecimalParts.value, hfits.count, abs_div_sub hu, div_right_comm]
    exact div_le_div_of_nonneg_right hrounds.near hu.le
  · rw [DecimalParts.value, hfits.count, abs_div_sub hu, div_right_comm, div_left_inj' hu.ne'] at ht
    exact (even_ofDigits hd).1 (hrounds.tie ht)
  · rw [Notation.toBytes_output _ _ hfits.decimal]
    exact List.append_nil _

/-- The numeral of scientific notation has so many places, and its digits and exponent are the rounded number, or all
zero. -/
theorem fits_scientificNotation : let n := scientificNotation x.magnitude false places
    (n.parts (shownRealSign x)).Fits places x ∧ ∃ e, n.tail = exponentTail 'e' 2 e ∧
      let d := Radix.decimal.ofDigits (n.parts (shownRealSign x)).digits
      ((x.abs = 0 ∧ d = 0 ∧ e = 0) ∨ RoundsTo x.abs places d e) := by
  let needed := min places x.magnitude.scientificPlaces
  let tail := exponentTail 'e' 2 (x.magnitude.scientific needed).2
  have hscaled := Notation.fits_ofScaled (x.magnitude.scientific needed).1 needed (places - needed) tail x
  rw [scientificNotation_eq]
  rw [Nat.add_sub_cancel' (Nat.min_le_left places _)] at hscaled
  refine ⟨hscaled.1, (x.magnitude.scientific needed).2, rfl, ?_⟩
  by_cases h : x.magnitude.num = 0
  · left
    have hzero := x.magnitude.scientific_zero h needed
    refine ⟨?_, ?_, by rw [hzero]⟩
    · rw [← x.toRat_magnitude, BinaryFraction.toRat_eq_zero, h]
    · refine hscaled.2.trans ?_
      rw [hzero, Nat.zero_mul]
  · right
    rw [← x.toRat_magnitude]
    exact hscaled.2 ▸ x.magnitude.roundsTo_scientific h places

variable {x places}

/-- The rounded number, as a numeral with an exponent, shows the double. -/
theorem shows_of_roundsTo {p : DecimalParts} (h : p.Fits places x) {e : ℤ}
    (hr : RoundsTo x.abs places (Radix.decimal.ofDigits p.digits) e) : (p.withExponent e).Shows places x := by
  have hvalue := h.value_withExponent e
  obtain ⟨first, hle, hlt, q, -, -, hcases⟩ := hr.exists_units
  have hne : x.abs ≠ 0 := ((by positivity : (0 : ℚ) < 10 ^ first).trans_le hle).ne'
  refine { toFits := h.withExponent e, lead := ?_, zero := fun h0 => absurd h0 hne, nearest := fun c f hc => ?_,
           tie := fun c f hc hdiff heq => ?_, carry := fun _ => ?_ }
  · obtain ⟨d, hd, hzero⟩ := h.lead hr.most
    exact ⟨d, hd, hzero.trans (iff_of_false (Nat.not_lt.2 hr.least) hne)⟩
  · rw [hvalue]
    exact hr.nearest hc f
  · rw [hvalue] at hdiff heq
    rw [DecimalParts.exponent_withExponent]
    exact (hr.even_of_tie hc f hdiff heq).imp_left fun heven d hd => (even_ofDigits hd).1 heven
  · rw [hvalue, DecimalParts.exponent_withExponent]
    rcases hcases with ⟨rfl, -⟩ | ⟨rfl, hd⟩
    · exact .inl ⟨hle, hlt⟩
    · refine .inr ⟨?_, hlt, ?_⟩
      · rwa [add_sub_cancel_right]
      · rw [hd, Nat.cast_pow, Nat.cast_ofNat, pow_mul_unit]

/-- So does the numeral of zeros, if the double is a zero. -/
theorem shows_of_zero {p : DecimalParts} (h : p.Fits places x) (hx : x.abs = 0)
    (hd : Radix.decimal.ofDigits p.digits = 0) : (p.withExponent 0).Shows places x := by
  have hvalue : (p.withExponent 0).value = 0 := by rw [h.value_withExponent, hd, Nat.cast_zero, zero_mul]
  refine { toFits := h.withExponent 0, lead := ?_, zero := fun _ => ⟨hvalue, DecimalParts.exponent_withExponent 0⟩
           nearest := fun c f _ => ?_, tie := fun c f _ hdiff heq => ?_, carry := fun hne => absurd hx hne }
  · obtain ⟨d, hwhole, hzero⟩ := h.lead (by rw [hd]; positivity)
    refine ⟨d, hwhole, hzero.trans (iff_of_true ?_ hx)⟩
    rw [hd]
    positivity
  · rw [hvalue, hx, sub_zero, abs_zero]
    exact abs_nonneg _
  · rw [hvalue, hx, sub_zero, sub_zero, abs_zero, abs_eq_zero] at heq
    exact absurd (heq.trans hvalue.symm) hdiff

variable (x places)

theorem exists_shows_scientific : ∃ p : ScientificParts, p.Shows places x ∧
    (shownRealSign x).map Char.toUInt8 ++ ((scientificNotation x.magnitude false places).output false false).toBytes =
      p.text.map Char.toUInt8 := by
  obtain ⟨hfits, e, htail, hcases⟩ := fits_scientificNotation x places
  refine ⟨((scientificNotation x.magnitude false places).parts (shownRealSign x)).withExponent e, ?_, ?_⟩
  · rcases hcases with ⟨hx, hd, rfl⟩ | hrounds
    · exact shows_of_zero hfits hx hd
    · exact shows_of_roundsTo hfits hrounds
  · rw [Notation.toBytes_output _ _ hfits.decimal, htail, DecimalParts.text_withExponent]

end Shown

/-! ## Texts -/

theorem plain_digits {ds : List Nat} (h : ∀ d ∈ ds, d < 10) : Plain (ds.map Nat.digitChar) := by
  have key : ∀ d < 10, IsPlain d.digitChar := by decide
  intro ch hch
  obtain ⟨d, hd, rfl⟩ := List.mem_map.1 hch
  exact key d (h d hd)

theorem DecimalParts.Fits.plain {p : DecimalParts} {places : Nat} {x : Binary64} (h : p.Fits places x) :
    Plain p.text := by
  obtain ⟨hwhole, hplaces⟩ := List.forall_mem_append.1 h.decimal
  have hsign : Plain p.sign := by
    rw [h.sign]
    split <;> decide
  refine plain_append.2 ⟨hsign, plain_append.2 ⟨plain_digits hwhole, ?_⟩⟩
  split
  · decide
  · exact plain_cons.2 ⟨by decide, plain_digits hplaces⟩

theorem ScientificParts.Fits.plain {p : ScientificParts} {places : Nat} {x : Binary64} (h : p.Fits places x) :
    Plain p.text := by
  have hsign : IsPlain p.exponentSign := by
    rcases h.exponentSign with hs | hs <;> rw [hs] <;> decide
  exact plain_append.2 ⟨h.toNumeral.plain, plain_cons.2 ⟨by decide,
    plain_cons.2 ⟨hsign, plain_digits h.exponentDecimal⟩⟩⟩

/-- A text is at least as long as its places. -/
theorem DecimalParts.Fits.le_length {p : DecimalParts} {places : Nat} {x : Binary64} (h : p.Fits places x) :
    places ≤ p.text.length := by
  rw [← h.count, DecimalParts.text, List.length_append, List.length_append]
  split
  · next hnil => rw [hnil]; exact Nat.zero_le _
  · simp only [List.length_cons, List.length_map]
    omega

theorem ScientificParts.Fits.le_length {p : ScientificParts} {places : Nat} {x : Binary64} (h : p.Fits places x) :
    places ≤ p.text.length := by
  rw [ScientificParts.text, List.length_append]
  exact h.toNumeral.le_length.trans (Nat.le_add_right _ _)

/-! ## Rendering -/

/-- A conversion without flags and width. -/
def WrittenStyle.bare (precision : Option WrittenAmount) : WrittenStyle :=
  ⟨[], .digits [], precision, (fun _ hf => nomatch hf), nofun⟩

/-- The places that a conversion of doubles shows: six where no precision is in force. -/
def WrittenStyle.realPlaces (w : WrittenStyle) : Nat := w.places?.getD 6

theorem sign_bare (precision : Option WrittenAmount) (x : Binary64) :
    (WrittenStyle.bare precision).style.sign x.negative = (shownRealSign x).map Char.toUInt8 := by
  have hbits := x.bits.toNat_lt
  have hnegative : x.negative = decide (2 ^ 63 ≤ x.bits.toNat) := by
    rw [Binary64.negative, decide_eq_decide, Nat.pow_eq]
    omega
  rw [Style.sign, shownRealSign, hnegative]
  by_cases h : 2 ^ 63 ≤ x.bits.toNat
  · rw [if_pos (decide_eq_true h), if_pos h]
    rfl
  · rw [if_neg (by simpa using h), if_neg h]
    rfl

/-- A conversion without flags and width writes the sign and the numeral of a finite double. -/
theorem render_real (precision : Option WrittenAmount) (style : RealStyle) {letter : Char}
    (hc : (Conversion.real style false, letter.toUInt8) ∈ Conversion.known) (hmark : style.mark false = [])
    {x : Binary64} (hx : x.isFinite = true) :
    let w := WrittenStyle.bare precision
    w.realPlaces ≤ 16383 → render (w.format "" letter) (w.args ++ [.real x]) =
      (shownRealSign x).map Char.toUInt8 ++ ((w.style.numeral style false x.floating).output false false).toBytes := by
  intro w hplaces
  have hprecision : ∀ a, w.precision = some a → a.value ≤ maxNumber := fun a ha => by
    refine (w.value_le_of_places (n := 16383) (fun places hp => ?_) ha).trans (by decide)
    rwa [WrittenStyle.realPlaces, hp] at hplaces
  have hfield : w.style.field .ordered .plain (.real style false) (.real x) =
      .ok { front := w.style.sign x.negative ++ []
            body := (w.style.numeral style false x.floating).output false false
            fillable := true
            filler := some ' '.toUInt8 } := by
    have hx : x.floating.isFinite = true := hx
    show Except.ok (w.style.real style false x.floating) = _
    rw [Style.real, if_pos hx, hmark]
    rfl
  have hm : ascii "" = Length.plain.bytes := rfl
  rw [w.render_format hm (by decide) hc (Int.natCast_nonneg _) hprecision rfl rfl nofun hfield,
    List.append_nil, sign_bare]
  have hleft : w.style.left = false := rfl
  have hzero : w.style.has .zero = false := rfl
  have hwidth : w.style.width = 0 := rfl
  rw [Field.output, hleft, if_neg Bool.false_ne_true, hzero, Bool.and_false, if_neg Bool.false_ne_true, hwidth,
    Nat.zero_sub]
  rfl

theorem render_fixed (precision : Option WrittenAmount) {x : Binary64} (hx : x.isFinite = true) :
    let w := WrittenStyle.bare precision
    ∃ p : DecimalParts, p.Shows w.realPlaces x ∧ (p.text.length ≤ 16383 →
      render (w.format "" 'f') (w.args ++ [.real x]) = p.text.map Char.toUInt8) := by
  intro w
  obtain ⟨p, hp, htext⟩ := exists_shows_fixed x w.realPlaces
  refine ⟨p, hp, fun hfits => ?_⟩
  rw [← htext]
  exact render_real precision .fixed (by decide) rfl hx (hp.le_length.trans hfits)

theorem render_scientific (precision : Option WrittenAmount) {x : Binary64} (hx : x.isFinite = true) :
    let w := WrittenStyle.bare precision
    ∃ p : ScientificParts, p.Shows w.realPlaces x ∧ (p.text.length ≤ 16383 →
      render (w.format "" 'e') (w.args ++ [.real x]) = p.text.map Char.toUInt8) := by
  intro w
  obtain ⟨p, hp, htext⟩ := exists_shows_scientific x w.realPlaces
  refine ⟨p, hp, fun hfits => ?_⟩
  rw [← htext]
  exact render_real precision .exponent (by decide) rfl hx (hp.le_length.trans hfits)

/-- A format of one conversion has no NUL in it. -/
theorem zero_not_mem_realFormat (w : WrittenStyle) {style : RealStyle} {letter : Char}
    (hc : (Conversion.real style false, letter.toUInt8) ∈ Conversion.known) : 0 ∉ w.format "" letter := by
  have hm : ascii "" = Length.plain.bytes := rfl
  exact fun h0 => (w.plain_format hm (by decide) hc 0 h0).1 rfl

end LogRelay.Format
