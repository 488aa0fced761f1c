import LogRelay.Floating
import LogRelay.Proofs.Numeral
import LogRelay.Proofs.Rounding

/-!
# The values of floating-point numbers

A finite double stands for a rational number (`Binary64.abs`, with its sign apart), a finite long double for another
(`Extended80.abs`), and the digits that are taken of such a number, in fixed notation and in scientific, are the number
rounded once (`rounds_fixed`, `roundsTo_scientific`). No more digits are computed than its exact value has, and the zeros
in place of the others are exact.
-/

namespace LogRelay

/-- A power by its natural exponents, one of which is zero. -/
theorem zpow_eq_div {b : ℚ} (hb : b ≠ 0) (e : ℤ) : b ^ e = b ^ e.toNat / b ^ (-e).toNat := by
  rw [← zpow_natCast, ← zpow_natCast, ← zpow_sub₀ hb]
  congr 1
  omega

namespace BinaryFraction

/-- The number that a binary fraction stands for. -/
def toRat (v : BinaryFraction) : ℚ := v.num / 2 ^ v.scale

variable (v : BinaryFraction)

theorem den_pos : 0 < v.den := Nat.pow_pos Nat.two_pos

theorem toRat_eq : v.toRat = v.num / v.den := by
  rw [toRat, den, Nat.pow_eq, Nat.cast_pow, Nat.cast_ofNat]

theorem toRat_eq_zero : v.toRat = 0 ↔ v.num = 0 := by
  rw [toRat_eq, div_eq_zero_iff, Nat.cast_eq_zero, Nat.cast_eq_zero, or_iff_left v.den_pos.ne']

/-- With as many places as there are factors of two below it, a binary fraction is whole. -/
theorem toRat_mul_pow_scale : v.toRat * 10 ^ v.scale = (v.num * 5 ^ v.scale : ℕ) := by
  rw [show (10 : ℚ) = 2 * 5 by norm_num, mul_pow, toRat, ← mul_assoc, div_mul_cancel₀ _ (by positivity)]
  exact_mod_cast rfl

/-! ## Fixed notation -/

theorem rounds_fixed_self (places : ℕ) : Rounds (v.toRat * 10 ^ places) (v.fixed places) := by
  have h := rounds_divHalfEven (v.num * Nat.pow 10 places) v.den_pos
  rw [Nat.pow_eq, Nat.cast_mul, Nat.cast_pow, Nat.cast_ofNat, mul_div_right_comm, ← toRat_eq] at h
  exact h

/-- As many places as the exact value needs, with zeros for the others, are as good as all places. -/
theorem rounds_fixed (places : ℕ) :
    Rounds (v.toRat * 10 ^ places) (v.fixed (min places v.scale) * 10 ^ (places - min places v.scale)) := by
  have h := v.rounds_fixed_self (min places v.scale)
  by_cases hle : places ≤ v.scale
  · rw [Nat.min_eq_left hle] at h ⊢
    rwa [Nat.sub_self, pow_zero, mul_one]
  · rw [Nat.min_eq_right (by omega)] at h ⊢
    have := h.mul_pow v.toRat_mul_pow_scale (places - v.scale)
    rwa [mul_assoc, ← pow_add, Nat.add_sub_cancel' (by omega)] at this

/-! ## Scientific notation -/

theorem exponent10_spec (h : v.num ≠ 0) :
    (10 : ℚ) ^ v.exponent10 ≤ v.toRat ∧ v.toRat < 10 ^ (v.exponent10 + 1) := by
  have hden : (0 : ℚ) < v.den := Nat.cast_pos.2 v.den_pos
  rw [toRat_eq, le_div_iff₀ hden, div_lt_iff₀ hden, exponent10, if_neg h]
  have hten : (0 : ℚ) < 10 := by norm_num
  split
  · next hle =>
    have hq : v.num / v.den ≠ 0 := (Nat.div_pos hle v.den_pos).ne'
    have hlow := Radix.decimal.pow_length_digits_le hq
    have hhigh := Radix.decimal.lt_pow_length_digits (v.num / v.den)
    obtain ⟨l, hl⟩ := Nat.exists_eq_succ_of_ne_zero (List.length_pos_iff.2 (Radix.decimal.digits_ne_nil hq)).ne'
    rw [hl, Nat.le_div_iff_mul_le v.den_pos] at hlow
    rw [hl, Nat.div_lt_iff_lt_mul v.den_pos] at hhigh
    rw [hl, sub_add_cancel, Nat.cast_succ, add_sub_cancel_right, ← Nat.cast_succ, zpow_natCast, zpow_natCast]
    exact ⟨by exact_mod_cast hlow, by exact_mod_cast hhigh⟩
  · next hlt =>
    have hpos := Nat.pos_of_ne_zero h
    have hq : (v.den - 1) / v.num ≠ 0 := (Nat.div_pos (by omega) hpos).ne'
    have hlow := Radix.decimal.pow_length_digits_le hq
    have hhigh := Radix.decimal.lt_pow_length_digits ((v.den - 1) / v.num)
    obtain ⟨l, hl⟩ := Nat.exists_eq_succ_of_ne_zero (List.length_pos_iff.2 (Radix.decimal.digits_ne_nil hq)).ne'
    rw [hl, Nat.le_div_iff_mul_le hpos] at hlow
    rw [hl, Nat.div_lt_iff_lt_mul hpos] at hhigh
    have hraised : -((l.succ : ℕ) : ℤ) + 1 = -(l : ℤ) := by omega
    rw [hl, hraised, zpow_neg, zpow_neg, zpow_natCast, zpow_natCast, inv_mul_le_iff₀ (pow_pos hten _),
      lt_inv_mul_iff₀ (pow_pos hten _)]
    exact ⟨by exact_mod_cast Nat.le_of_pred_lt hhigh, by exact_mod_cast Nat.lt_of_le_pred v.den_pos hlow⟩

/-- No binary fraction but zero is below the last place of its exact value. -/
theorem neg_scale_le_exponent10 (h : v.num ≠ 0) : -(v.scale : ℤ) ≤ v.exponent10 := by
  have hhigh := (v.exponent10_spec h).2
  have hlow : (10 : ℚ) ^ (-(v.scale : ℤ)) ≤ v.toRat := by
    have hnum : (1 : ℚ) ≤ v.num := by exact_mod_cast Nat.pos_of_ne_zero h
    have hpow : (2 : ℚ) ^ v.scale ≤ 10 ^ v.scale := pow_le_pow_left₀ (by norm_num) (by norm_num) _
    rw [zpow_neg, zpow_natCast, toRat, inv_eq_one_div]
    exact div_le_div₀ (by positivity) hnum (by positivity) hpow
  have hlt := (zpow_lt_zpow_iff_right₀ (by norm_num : (1 : ℚ) < 10)).1 (hlow.trans_lt hhigh)
  omega

theorem rounds_inUnits (unit : ℤ) : Rounds (v.toRat / 10 ^ unit) (v.inUnits unit) := by
  have hpos : 0 < v.den * Nat.pow 10 unit.toNat := Nat.mul_pos v.den_pos (Nat.pow_pos (by norm_num))
  have h := rounds_divHalfEven (v.num * Nat.pow 10 (-unit).toNat) hpos
  have hvalue : v.toRat / 10 ^ unit =
      ((v.num * Nat.pow 10 (-unit).toNat : ℕ) : ℚ) / (v.den * Nat.pow 10 unit.toNat : ℕ) := by
    rw [zpow_eq_div (by norm_num) unit, div_div_eq_mul_div, toRat_eq]
    push_cast [Nat.pow_eq]
    rw [div_mul_eq_mul_div, div_div]
  rwa [hvalue]

/-- In units of the last of its significant digits, a number has so many digits before the point. -/
theorem toRat_div_unit (h : v.num ≠ 0) (places : ℕ) :
    ((10 ^ places : ℕ) : ℚ) ≤ v.toRat / 10 ^ (v.exponent10 - places) ∧
      v.toRat / 10 ^ (v.exponent10 - places) < (10 ^ (places + 1) : ℕ) := by
  obtain ⟨hlow, hhigh⟩ := v.exponent10_spec h
  have hu : (0 : ℚ) < 10 ^ (v.exponent10 - places) := by positivity
  rw [le_div_iff₀ hu, div_lt_iff₀ hu]
  push_cast
  rw [pow_succ, mul_right_comm, pow_mul_unit, ← zpow_add_one₀ (by norm_num)]
  exact ⟨hlow, hhigh⟩

theorem roundsTo_scientific_self (h : v.num ≠ 0) (places : ℕ) :
    RoundsTo v.toRat places (v.scientific places).1 (v.scientific places).2 := by
  have hrounds := v.rounds_inUnits (v.exponent10 - places)
  obtain ⟨hlow, hhigh⟩ := v.toRat_div_unit h places
  obtain ⟨hdecade, hdecade'⟩ := v.exponent10_spec h
  have hle := hrounds.le_of_le hlow
  have hge := hrounds.ge_of_ge hhigh.le
  have hstep : 10 ^ places < 10 ^ (places + 1) := Nat.pow_lt_pow_right (by norm_num) (Nat.lt_succ_self places)
  unfold scientific
  dsimp only
  split
  · next hcarry => exact ⟨le_rfl, hstep, _, hdecade, hdecade', _, hrounds, .inr ⟨rfl, hcarry, rfl⟩⟩
  · next hkept => exact ⟨hle, lt_of_le_of_ne hge hkept, _, hdecade, hdecade', _, hrounds, .inl ⟨rfl, rfl⟩⟩

/-- With as many significant digits as it has, a number is exact. -/
theorem scientific_exact (h : v.num ≠ 0) : v.toRat =
    (v.scientific v.scientificPlaces).1 * 10 ^ ((v.scientific v.scientificPlaces).2 - (v.scientificPlaces : ℤ)) := by
  have hunit : v.exponent10 - (v.scientificPlaces : ℤ) = -v.scale := by
    rw [scientificPlaces, Int.toNat_of_nonneg (by have := v.neg_scale_le_exponent10 h; omega)]
    omega
  have hwhole : v.toRat / 10 ^ (v.exponent10 - (v.scientificPlaces : ℤ)) = (v.num * 5 ^ v.scale : ℕ) := by
    rw [hunit, zpow_neg, zpow_natCast, div_inv_eq_mul, v.toRat_mul_pow_scale]
  have hrounds := v.rounds_inUnits (v.exponent10 - v.scientificPlaces)
  have hhigh := (v.toRat_div_unit h v.scientificPlaces).2
  rw [hwhole] at hrounds hhigh
  have hq := hrounds.eq_of_natCast
  have hkept : v.inUnits (v.exponent10 - v.scientificPlaces) ≠ Nat.pow 10 (v.scientificPlaces + 1) := by
    rw [hq]
    exact (Nat.cast_lt.1 hhigh).ne
  rw [scientific, if_neg hkept, hq, ← hwhole, div_mul_cancel₀ _ (by positivity)]

/-- The significant digits of a number other than zero, with zeros for those that its exact value does not need. -/
theorem roundsTo_scientific (h : v.num ≠ 0) (places : ℕ) :
    let needed := min places v.scientificPlaces
    RoundsTo v.toRat places ((v.scientific needed).1 * 10 ^ (places - needed)) (v.scientific needed).2 := by
  intro needed
  by_cases hle : places ≤ v.scientificPlaces
  · rw [show needed = places from Nat.min_eq_left hle, Nat.sub_self, pow_zero, mul_one]
    exact v.roundsTo_scientific_self h places
  · have hneeded : needed = v.scientificPlaces := Nat.min_eq_right (by omega)
    obtain ⟨zeros, rfl⟩ := Nat.exists_eq_add_of_le (Nat.le_of_not_le hle)
    have hself := v.roundsTo_scientific_self h v.scientificPlaces
    rw [hneeded, Nat.add_sub_cancel_left]
    refine .of_eq ?_ ?_ ?_
    · rw [pow_add]
      exact Nat.mul_le_mul_right _ hself.least
    · rw [Nat.add_right_comm, pow_add]
      exact Nat.mul_lt_mul_of_pos_right hself.most (by positivity)
    · have hten : (10 : ℚ) ≠ 0 := by norm_num
      rw [Nat.cast_mul, Nat.cast_pow, Nat.cast_ofNat, mul_assoc, ← zpow_natCast, ← zpow_add₀ hten,
        show (zeros : ℤ) + ((v.scientific v.scientificPlaces).2 - ((v.scientificPlaces + zeros : ℕ) : ℤ)) =
          (v.scientific v.scientificPlaces).2 - v.scientificPlaces by omega]
      exact v.scientific_exact h

theorem scientific_zero (h : v.num = 0) (places : ℕ) : v.scientific places = (0, 0) := by
  have hexponent : v.exponent10 = 0 := if_pos h
  have hq : v.inUnits (v.exponent10 - places) = 0 := by
    rw [inUnits, h, Nat.zero_mul, divHalfEven, Nat.zero_div, Nat.zero_mod, if_neg (by omega)]
  have hne : 0 ≠ Nat.pow 10 (places + 1) := (Nat.pow_pos (by norm_num)).ne
  rw [scientific, hq, if_neg hne, hexponent]

end BinaryFraction

/-! ## Doubles -/

namespace Binary64

/-- The absolute value of a finite double. -/
def abs (x : Binary64) : ℚ :=
  if x.exponent = 0 then x.fraction / 2 ^ 1074 else (2 ^ 52 + x.fraction) * 2 ^ ((x.exponent : ℤ) - 1075)

theorem toRat_magnitude (x : Binary64) : x.magnitude.toRat = x.abs := by
  unfold magnitude abs significand leading scale BinaryFraction.toRat
  by_cases h : x.exponent = 0
  · simp only [h, if_pos, Nat.zero_mul, Nat.zero_add, Nat.zero_sub, Nat.pow_eq, Nat.pow_zero, Nat.mul_one,
      Nat.sub_zero]
  · have hup : ((x.exponent : ℤ) - 1075).toNat = x.exponent - 1 - 1074 := by omega
    have hdown : (-((x.exponent : ℤ) - 1075)).toNat = 1074 - (x.exponent - 1) := by omega
    rw [if_neg h, if_neg h, zpow_eq_div two_ne_zero, hup, hdown, ← mul_div_assoc]
    simp only [Nat.one_mul, Nat.pow_eq, Nat.cast_mul, Nat.cast_add, Nat.cast_pow, Nat.cast_ofNat]

end Binary64

/-! ## Long doubles -/

namespace Extended80

/-- The absolute value of a finite long double. The least exponent stands for the same power as the next. -/
def abs (x : Extended80) : ℚ := x.significand.toNat * 2 ^ ((max x.exponent 1 : ℕ) - 16446 : ℤ)

theorem toRat_magnitude (x : Extended80) : x.magnitude.toRat = x.abs := by
  unfold magnitude abs scale BinaryFraction.toRat
  have hup : ((max x.exponent 1 : ℕ) - 16446 : ℤ).toNat = x.exponent - 1 - 16445 := by omega
  have hdown : (-((max x.exponent 1 : ℕ) - 16446 : ℤ)).toNat = 16445 - (x.exponent - 1) := by omega
  rw [zpow_eq_div two_ne_zero, hup, hdown, ← mul_div_assoc]
  simp only [Nat.pow_eq, Nat.cast_mul, Nat.cast_pow, Nat.cast_ofNat]

end Extended80
end LogRelay
