import LogRelay.Numeral
import Mathlib.Algebra.Order.Ring.Nat
import Mathlib.Data.List.Induction

/-!
# Digits

The digits of a number are as few as can be: none of zero, and else the first is not zero. Zeros in front of them change
nothing.
-/

namespace LogRelay
namespace Radix

variable (r : Radix)

@[simp] theorem digits_zero : r.digits 0 = [] := by
  rw [digits, digitsRev, if_pos rfl, List.reverse_nil]

theorem digits_of_ne_zero {n : Nat} (h : n ≠ 0) : r.digits n = r.digits (n / r.base) ++ [n % r.base] := by
  rw [digits, digitsRev, if_neg h, List.reverse_cons, digits]

theorem digits_ne_nil {n : Nat} (h : n ≠ 0) : r.digits n ≠ [] := by
  rw [r.digits_of_ne_zero h]
  exact List.append_ne_nil_of_right_ne_nil _ (List.cons_ne_nil _ _)

theorem head?_digits_ne_zero (n : Nat) : (r.digits n).head? ≠ some 0 := by
  induction n using Nat.strongRecOn with
  | _ n ih =>
    by_cases h : n = 0
    · simp [h]
    · rw [r.digits_of_ne_zero h]
      by_cases hq : n / r.base = 0
      · -- a single digit, which is the number itself
        have hlt : n < r.base := (Nat.div_eq_zero_iff_lt (Nat.lt_trans Nat.one_pos r.one_lt_base)).1 hq
        rw [hq, digits_zero, List.nil_append, List.head?_cons, Nat.mod_eq_of_lt hlt]
        simpa using h
      · have hd := ih _ (Nat.div_lt_self (by omega) r.one_lt_base)
        obtain ⟨d, ds, he⟩ := List.exists_cons_of_ne_nil (r.digits_ne_nil hq)
        rw [he] at hd ⊢
        exact hd

theorem length_digits_le {n k : Nat} (h : n < r.base ^ k) : (r.digits n).length ≤ k := by
  induction k generalizing n with
  | zero =>
    obtain rfl : n = 0 := by simpa using h
    simp
  | succ k ih =>
    by_cases hn : n = 0
    · simp [hn]
    · rw [r.digits_of_ne_zero hn, List.length_append, List.length_singleton]
      rw [Nat.pow_succ] at h
      exact Nat.succ_le_succ (ih ((Nat.div_lt_iff_lt_mul (Nat.lt_trans Nat.one_pos r.one_lt_base)).2 h))

theorem lt_pow_length_digits (n : Nat) : n < r.base ^ (r.digits n).length := by
  induction n using Nat.strongRecOn with
  | _ n ih =>
    by_cases h : n = 0
    · simp [h]
    · have hq := ih _ (Nat.div_lt_self (by omega) r.one_lt_base)
      rw [r.digits_of_ne_zero h, List.length_append, List.length_singleton, Nat.pow_succ]
      exact (Nat.div_lt_iff_lt_mul (Nat.lt_trans Nat.one_pos r.one_lt_base)).1 hq

theorem pow_length_digits_le {n : Nat} (h : n ≠ 0) : r.base ^ ((r.digits n).length - 1) ≤ n := by
  induction n using Nat.strongRecOn with
  | _ n ih =>
    rw [r.digits_of_ne_zero h, List.length_append, List.length_singleton, Nat.add_sub_cancel]
    by_cases hq : n / r.base = 0
    · rw [hq, digits_zero, List.length_nil, Nat.pow_zero]
      exact Nat.pos_of_ne_zero h
    · have hle := ih _ (Nat.div_lt_self (by omega) r.one_lt_base) hq
      have hpos := List.length_pos_iff.2 (r.digits_ne_nil hq)
      rw [← Nat.sub_add_cancel hpos, Nat.pow_succ]
      exact (Nat.mul_le_mul_right _ hle).trans (Nat.div_mul_le_self n r.base)

theorem ofDigits_cons (d : Nat) (ds : List Nat) :
    r.ofDigits (d :: ds) = d * r.base ^ ds.length + r.ofDigits ds := by
  induction ds using List.reverseRecOn with
  | nil => simp [ofDigits]
  | append_singleton ds e ih =>
    rw [← List.cons_append, ofDigits_append_singleton, ofDigits_append_singleton, ih, List.length_append,
      List.length_singleton, Nat.pow_succ, Nat.add_mul, Nat.mul_assoc, Nat.add_assoc]

theorem ofDigits_lt {ds : List Nat} (h : ∀ d ∈ ds, d < r.base) : r.ofDigits ds < r.base ^ ds.length := by
  induction ds using List.reverseRecOn with
  | nil => exact Nat.one_pos
  | append_singleton ds d ih =>
    obtain ⟨hds, hd⟩ := List.forall_mem_append.1 h
    have hstep := Nat.mul_le_mul_right r.base (ih hds)
    have hlast := hd d (List.mem_singleton_self d)
    rw [ofDigits_append_singleton, List.length_append, List.length_singleton, Nat.pow_succ]
    rw [Nat.succ_mul] at hstep
    omega

/-- The first digit decides whether a number needs all of them. -/
theorem ofDigits_cons_lt_pow_iff {d : Nat} {ds : List Nat} (h : ∀ e ∈ ds, e < r.base) :
    r.ofDigits (d :: ds) < r.base ^ ds.length ↔ d = 0 := by
  have hrest := r.ofDigits_lt h
  rw [ofDigits_cons]
  constructor
  · intro hlt
    by_contra hd
    have hmul := Nat.le_mul_of_pos_left (r.base ^ ds.length) (Nat.pos_of_ne_zero hd)
    omega
  · rintro rfl
    rwa [Nat.zero_mul, Nat.zero_add]

theorem ofDigits_append_replicate_zero (ds : List Nat) (k : Nat) :
    r.ofDigits (ds ++ List.replicate k 0) = r.ofDigits ds * r.base ^ k := by
  induction k with
  | zero => simp
  | succ k ih =>
    rw [List.replicate_succ', ← List.append_assoc, ofDigits_append_singleton, ih, Nat.add_zero, Nat.pow_succ,
      Nat.mul_assoc]

theorem ofDigits_replicate_zero_append (k : Nat) (ds : List Nat) :
    r.ofDigits (List.replicate k 0 ++ ds) = r.ofDigits ds := by
  induction k with
  | zero => rfl
  | succ k ih =>
    rw [List.replicate_succ, List.cons_append, ← ih]
    simp [ofDigits]

end Radix

theorem length_padDigits (least : Nat) (ds : List Nat) : (padDigits least ds).length = max least ds.length := by
  rw [padDigits, List.length_append, List.length_replicate]
  omega

theorem ofDigits_padDigits (r : Radix) (least n : Nat) : r.ofDigits (padDigits least (r.digits n)) = n := by
  rw [padDigits, r.ofDigits_replicate_zero_append, r.ofDigits_digits]

/-- A zero stands in front only where the number has fewer digits than are asked for. -/
theorem length_padDigits_of_head? {r : Radix} {least n : Nat}
    (h : (padDigits least (r.digits n)).head? = some 0) : (padDigits least (r.digits n)).length = least := by
  rw [length_padDigits]
  by_cases hshort : (r.digits n).length ≤ least
  · exact Nat.max_eq_left hshort
  · rw [padDigits, Nat.sub_eq_zero_of_le (by omega), List.replicate_zero, List.nil_append] at h
    exact absurd h (r.head?_digits_ne_zero n)

theorem lt_base_of_mem_padDigits {r : Radix} {least n d : Nat} (h : d ∈ padDigits least (r.digits n)) : d < r.base := by
  rcases List.mem_append.1 h with h | h
  · rw [List.eq_of_mem_replicate h]
    exact Nat.lt_trans Nat.one_pos r.one_lt_base
  · exact Radix.lt_base_of_mem_digits h

end LogRelay
