import LogRelay.Numeral
import Mathlib.Algebra.Order.Field.Power
import Mathlib.Tactic.FieldSimp
import Mathlib.Tactic.Linarith
import Mathlib.Tactic.Positivity
import Mathlib.Tactic.Ring

/-!
# Rounding

What it means that a natural number is a rational number rounded to nearest, a half to the even neighbour (`Rounds`), and
that a number of so many decimal digits is (`RoundsTo`). Of all numbers of as many digits, whatever their exponents, that
one is the nearest (`RoundsTo.nearest`), so what is said of one unit is enough for all.
-/

namespace LogRelay

/-- `q` is `y` rounded to nearest, a half to the even neighbour. -/
structure Rounds (y : ℚ) (q : ℕ) : Prop where
  near : |(q : ℚ) - y| ≤ 1 / 2
  tie : |(q : ℚ) - y| = 1 / 2 → Even q

namespace Rounds

variable {y : ℚ} {q : ℕ}

theorem natCast (n : ℕ) : Rounds n n where
  near := by
    rw [sub_self, abs_zero]
    norm_num
  tie h := by
    rw [sub_self, abs_zero] at h
    norm_num at h

theorem of_below (h : (q : ℚ) ≤ y) (near : y - q ≤ 1 / 2) (tie : y - q = 1 / 2 → Even q) : Rounds y q := by
  have habs : |(q : ℚ) - y| = y - q := by rw [abs_sub_comm, abs_of_nonneg (sub_nonneg.2 h)]
  exact ⟨habs ▸ near, habs ▸ tie⟩

theorem of_above (h : y ≤ (q : ℚ)) (near : q - y ≤ 1 / 2) (tie : q - y = 1 / 2 → Even q) : Rounds y q := by
  have habs : |(q : ℚ) - y| = q - y := abs_of_nonneg (sub_nonneg.2 h)
  refine ⟨?_, ?_⟩ <;> rwa [habs]

/-- Rounding does not pass a whole number. -/
theorem le_of_le (h : Rounds y q) {n : ℕ} (hn : (n : ℚ) ≤ y) : n ≤ q := by
  by_contra hlt
  have hstep : (q : ℚ) + 1 ≤ n := by exact_mod_cast Nat.lt_of_not_le hlt
  have hnear := (abs_le.1 h.near).1
  linarith

theorem ge_of_ge (h : Rounds y q) {n : ℕ} (hn : y ≤ (n : ℚ)) : q ≤ n := by
  by_contra hlt
  have hstep : (n : ℚ) + 1 ≤ q := by exact_mod_cast Nat.lt_of_not_le hlt
  have hnear := (abs_le.1 h.near).2
  linarith

/-- A whole number is rounded to itself. -/
theorem eq_of_natCast {n : ℕ} (h : Rounds n q) : q = n :=
  Nat.le_antisymm (h.ge_of_ge le_rfl) (h.le_of_le le_rfl)

/-- A whole number stays exact with zeros behind it. -/
theorem mul_pow (h : Rounds y q) {n : ℕ} (hn : y = n) (zeros : ℕ) : Rounds (y * 10 ^ zeros) (q * 10 ^ zeros) := by
  subst hn
  rw [h.eq_of_natCast]
  exact_mod_cast Rounds.natCast (n * 10 ^ zeros)

/-- Two whole numbers are at least one apart, so what is within a half is nearest. -/
theorem one_le_add (q : ℕ) {k : ℤ} (hk : k ≠ q) (y : ℚ) : 1 ≤ |(q : ℚ) - y| + |(k : ℚ) - y| := by
  have happart : (1 : ℚ) ≤ |(q : ℚ) - k| := by
    have hne : (q : ℤ) - k ≠ 0 := sub_ne_zero.2 hk.symm
    exact_mod_cast Int.one_le_abs hne
  calc (1 : ℚ) ≤ |(q : ℚ) - k| := happart
    _ ≤ |(q : ℚ) - y| + |y - k| := abs_sub_le _ _ _
    _ = |(q : ℚ) - y| + |(k : ℚ) - y| := by rw [abs_sub_comm y]

theorem nearest (h : Rounds y q) (k : ℤ) : |(q : ℚ) - y| ≤ |(k : ℚ) - y| := by
  by_cases hk : k = q
  · rw [hk, Int.cast_natCast]
  · have hone := one_le_add q hk y
    have hnear := h.near
    linarith

/-- Where another whole number is as near, the even one is taken. -/
theorem even_of_tie (h : Rounds y q) {k : ℤ} (hk : k ≠ q) (he : |(k : ℚ) - y| = |(q : ℚ) - y|) : Even q := by
  have hone := one_le_add q hk y
  have hnear := h.near
  exact h.tie (by linarith)

end Rounds

theorem rounds_divHalfEven (n : ℕ) {d : ℕ} (hd : 0 < d) : Rounds ((n : ℚ) / d) (divHalfEven n d) := by
  have hd' : (0 : ℚ) < d := Nat.cast_pos.2 hd
  have hdiv : (n : ℚ) / d = (n / d : ℕ) + ((n % d : ℕ) : ℚ) / d := by
    rw [div_eq_iff hd'.ne', add_mul, div_mul_cancel₀ _ hd'.ne']
    exact_mod_cast (Nat.div_add_mod' n d).symm
  -- the remainder against half of the divisor, as a fraction of it
  have hrest : 0 ≤ ((n % d : ℕ) : ℚ) / d := by positivity
  have hone : ((n % d : ℕ) : ℚ) / d < 1 := by
    rw [div_lt_one hd']
    exact_mod_cast Nat.mod_lt n hd
  have hhalf : ((n % d : ℕ) : ℚ) / d ≤ 1 / 2 ↔ 2 * (n % d) ≤ d := by
    rw [div_le_div_iff₀ hd' two_pos, one_mul, mul_comm]
    exact_mod_cast Iff.rfl
  have heq : ((n % d : ℕ) : ℚ) / d = 1 / 2 ↔ 2 * (n % d) = d := by
    rw [div_eq_div_iff hd'.ne' two_ne_zero, one_mul, mul_comm]
    exact_mod_cast Iff.rfl
  by_cases h : d < 2 * (n % d) ∨ (2 * (n % d) = d ∧ n / d % 2 = 1)
  · rw [show divHalfEven n d = n / d + 1 from if_pos h]
    have hge : 1 / 2 ≤ ((n % d : ℕ) : ℚ) / d := by
      rcases h with h | ⟨h, -⟩
      · exact le_of_not_ge fun hle => absurd (hhalf.1 hle) (Nat.not_le.2 h)
      · exact (heq.2 h).ge
    refine .of_above ?_ ?_ fun ht => ?_
    · rw [hdiv, Nat.cast_add_one]
      linarith
    · rw [hdiv, Nat.cast_add_one]
      linarith
    · rw [hdiv, Nat.cast_add_one] at ht
      have htie : 2 * (n % d) = d := heq.1 (by linarith)
      have hodd : n / d % 2 = 1 := by
        rcases h with h | ⟨-, h⟩
        · omega
        · exact h
      exact Nat.even_iff.2 (by omega)
  · rw [show divHalfEven n d = n / d from if_neg h]
    have hle : 2 * (n % d) ≤ d := by omega
    refine .of_below ?_ ?_ fun ht => ?_
    · rw [hdiv]
      linarith
    · rw [hdiv, add_sub_cancel_left]
      exact hhalf.2 hle
    · rw [hdiv, add_sub_cancel_left] at ht
      have htie := heq.1 ht
      exact Nat.even_iff.2 (by omega)

/-! ## Significant digits -/

/-- `d * 10 ^ (e - places)` is `a` rounded to `places + 1` significant digits. They are counted from the first digit of
`a`, and a carry out of them raises the exponent. -/
structure RoundsTo (a : ℚ) (places d : ℕ) (e : ℤ) : Prop where
  least : 10 ^ places ≤ d
  most : d < 10 ^ (places + 1)
  decade : ∃ first : ℤ, (10 : ℚ) ^ first ≤ a ∧ a < 10 ^ (first + 1) ∧
    ∃ q, Rounds (a / 10 ^ (first - places)) q ∧
      ((e = first ∧ q = d) ∨ (e = first + 1 ∧ q = 10 ^ (places + 1) ∧ d = 10 ^ places))

/-- The distance of a multiple of the unit, in units. -/
theorem abs_mul_sub {u : ℚ} (hu : 0 < u) (k a : ℚ) : |k * u - a| = |k - a / u| * u := by
  rw [← abs_of_pos hu, ← abs_mul, abs_of_pos hu, sub_mul, div_mul_cancel₀ _ hu.ne']

theorem abs_div_sub {u : ℚ} (hu : 0 < u) (n a : ℚ) : |n / u - a| = |n - a * u| / u := by
  rw [← abs_of_pos hu, ← abs_div, abs_of_pos hu, sub_div, mul_div_cancel_right₀ _ hu.ne']

theorem pow_mul_unit (places : ℕ) (e : ℤ) : (10 : ℚ) ^ places * 10 ^ (e - places) = 10 ^ e := by
  rw [← zpow_natCast, ← zpow_add₀ (by norm_num), add_sub_cancel]

/-- A number of so many digits is a multiple of the unit of `a`, or else it lies below the decade of `a` and is farther
away than the first number of that decade. -/
theorem multiple_or_farther {a : ℚ} {places c : ℕ} {first : ℤ} (ha : (10 : ℚ) ^ first ≤ a) (hc : c < 10 ^ (places + 1))
    (f : ℤ) : (∃ k : ℤ, (c : ℚ) * 10 ^ (f - places) = k * 10 ^ (first - places)) ∨
      |10 ^ first - a| < |(c : ℚ) * 10 ^ (f - places) - a| := by
  by_cases hf : first ≤ f
  · refine .inl ⟨c * 10 ^ (f - first).toNat, ?_⟩
    have hten : (10 : ℚ) ^ (f - first).toNat = 10 ^ (f - first) := by
      rw [← zpow_natCast, Int.toNat_of_nonneg (by omega)]
    push_cast
    rw [hten, mul_assoc, ← zpow_add₀ (by norm_num), sub_add_sub_cancel]
  · right
    have hunit : (0 : ℚ) < 10 ^ (f - places) := by positivity
    have hbelow : (c : ℚ) * 10 ^ (f - places) < 10 ^ first :=
      calc (c : ℚ) * 10 ^ (f - places) < (10 ^ (places + 1) : ℕ) * 10 ^ (f - places) := by
            exact mul_lt_mul_of_pos_right (Nat.cast_lt.2 hc) hunit
        _ = 10 ^ (f + 1) := by
            rw [Nat.cast_pow, pow_succ, mul_right_comm, Nat.cast_ofNat, pow_mul_unit, zpow_add_one₀ (by norm_num)]
        _ ≤ 10 ^ first := zpow_le_zpow_right₀ (by norm_num) (by omega)
    rw [abs_sub_comm, abs_of_nonneg (sub_nonneg.2 ha), abs_sub_comm, abs_of_nonneg (by linarith)]
    linarith

namespace RoundsTo

variable {a : ℚ} {places d : ℕ} {e : ℤ}

/-- A number of so many digits is rounded to itself. -/
theorem of_eq (least : 10 ^ places ≤ d) (most : d < 10 ^ (places + 1)) (h : a = d * 10 ^ (e - places)) :
    RoundsTo a places d e where
  least := least
  most := most
  decade := by
    have hu : (0 : ℚ) < 10 ^ (e - places) := by positivity
    refine ⟨e, ?_, ?_, d, ?_, .inl ⟨rfl, rfl⟩⟩
    · rw [h, ← pow_mul_unit places e]
      exact mul_le_mul_of_nonneg_right (by exact_mod_cast least) hu.le
    · rw [h, zpow_add_one₀ (by norm_num), ← pow_mul_unit places e, mul_right_comm, ← pow_succ]
      exact mul_lt_mul_of_pos_right (by exact_mod_cast most) hu
    · rw [h, mul_div_cancel_right₀ _ hu.ne']
      exact .natCast d

/-- The rounded number as a multiple of the unit of `a`. -/
theorem exists_units (h : RoundsTo a places d e) : ∃ first : ℤ, (10 : ℚ) ^ first ≤ a ∧ a < 10 ^ (first + 1) ∧
    ∃ q, Rounds (a / 10 ^ (first - places)) q ∧ (d : ℚ) * 10 ^ (e - places) = q * 10 ^ (first - places) ∧
      ((e = first ∧ q = d) ∨ (e = first + 1 ∧ d = 10 ^ places)) := by
  obtain ⟨first, hle, hlt, q, hq, ⟨rfl, rfl⟩ | ⟨rfl, rfl, rfl⟩⟩ := h.decade
  · exact ⟨e, hle, hlt, q, hq, rfl, .inl ⟨rfl, rfl⟩⟩
  · refine ⟨first, hle, hlt, _, hq, ?_, .inr ⟨rfl, rfl⟩⟩
    push_cast
    rw [pow_mul_unit, pow_succ, mul_right_comm, pow_mul_unit, zpow_add_one₀ (by norm_num)]

/-- No number of so many digits is nearer, whatever its exponent. -/
theorem nearest (h : RoundsTo a places d e) {c : ℕ} (hc : c < 10 ^ (places + 1)) (f : ℤ) :
    |(d : ℚ) * 10 ^ (e - places) - a| ≤ |(c : ℚ) * 10 ^ (f - places) - a| := by
  obtain ⟨first, hle, -, q, hq, hd, -⟩ := h.exists_units
  have hu : (0 : ℚ) < 10 ^ (first - places) := by positivity
  have hmultiple (k : ℤ) : |(d : ℚ) * 10 ^ (e - places) - a| ≤ |(k : ℚ) * 10 ^ (first - places) - a| := by
    rw [hd, abs_mul_sub hu, abs_mul_sub hu]
    exact mul_le_mul_of_nonneg_right (hq.nearest k) hu.le
  rcases multiple_or_farther hle hc f with ⟨k, hk⟩ | hfar
  · rw [hk]
    exact hmultiple k
  · refine le_trans ?_ hfar.le
    rw [← pow_mul_unit places first]
    exact_mod_cast hmultiple (10 ^ places)

/-- Where another number of so many digits is as near, the last digit is even, unless it is the only digit and there was a
carry. -/
theorem even_of_tie (h : RoundsTo a places d e) {c : ℕ} (hc : c < 10 ^ (places + 1)) (f : ℤ)
    (hne : (c : ℚ) * 10 ^ (f - places) ≠ d * 10 ^ (e - places))
    (he : |(c : ℚ) * 10 ^ (f - places) - a| = |(d : ℚ) * 10 ^ (e - places) - a|) :
    Even d ∨ (places = 0 ∧ a < 10 ^ e) := by
  obtain ⟨first, hle, hlt, q, hq, hd, hcases⟩ := h.exists_units
  have hu : (0 : ℚ) < 10 ^ (first - places) := by positivity
  rcases hcases with ⟨rfl, rfl⟩ | ⟨rfl, hone⟩
  · left
    rcases multiple_or_farther hle hc f with ⟨k, hk⟩ | hfar
    · rw [hk, abs_mul_sub hu, abs_mul_sub hu] at he
      refine hq.even_of_tie (fun hkq => hne ?_) (mul_right_cancel₀ hu.ne' he)
      rw [hk, hkq, Int.cast_natCast]
    · -- the first number of the decade would be nearer than the rounded one
      have hfirst := h.nearest (Nat.pow_lt_pow_right (by norm_num) (Nat.lt_succ_self places)) e
      rw [Nat.cast_pow, Nat.cast_ofNat, pow_mul_unit] at hfirst
      exact absurd he (hfirst.trans_lt hfar).ne'
  · by_cases hplaces : places = 0
    · exact .inr ⟨hplaces, hlt⟩
    · exact .inl (hone ▸ (by decide : Even 10).pow_of_ne_zero hplaces)

end RoundsTo

end LogRelay
