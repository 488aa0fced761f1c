/-!
# Positional numerals

A number in a radix is its list of digits, the most significant first and none for zero, so `ofDigits` undoes
`digits`. `ofDigitsUpTo` reads a number of any length with small ones only. `divHalfEven` is the quotient rounded to
nearest, a half to the even neighbour.
-/

namespace LogRelay

inductive Radix where
  | binary | octal | decimal | hexadecimal
  deriving DecidableEq

namespace Radix

def base : Radix → Nat
  | binary => 2
  | octal => 8
  | decimal => 10
  | hexadecimal => 16

theorem one_lt_base (r : Radix) : 1 < r.base := by cases r <;> decide

/-- The digits of `n`, the least significant first. -/
def digitsRev (r : Radix) (n : Nat) : List Nat :=
  if n = 0 then [] else n % r.base :: r.digitsRev (n / r.base)
termination_by n
decreasing_by exact Nat.div_lt_self (by omega) r.one_lt_base

def digits (r : Radix) (n : Nat) : List Nat := (r.digitsRev n).reverse

/-- The number that digits stand for, the most significant first. -/
def ofDigits (r : Radix) (ds : List Nat) : Nat := ds.foldl (fun v d => v * r.base + d) 0

theorem ofDigits_append_singleton (r : Radix) (ds : List Nat) (d : Nat) :
    r.ofDigits (ds ++ [d]) = r.ofDigits ds * r.base + d := by
  simp [ofDigits]

theorem ofDigits_digits (r : Radix) (n : Nat) : r.ofDigits (r.digits n) = n := by
  induction n using Nat.strongRecOn with
  | _ n ih =>
    rw [digits, digitsRev]
    split
    · next h => simp [ofDigits, h]
    · next h =>
      have hlt : n / r.base < n := Nat.div_lt_self (by omega) r.one_lt_base
      rw [List.reverse_cons, ofDigits_append_singleton, ← digits, ih _ hlt, Nat.mul_comm]
      exact Nat.div_add_mod n r.base

theorem lt_base_of_mem_digits {r : Radix} {n d : Nat} (h : d ∈ r.digits n) : d < r.base := by
  induction n using Nat.strongRecOn with
  | _ n ih =>
    rw [digits, List.mem_reverse, digitsRev] at h
    split at h
    · simp at h
    · next h0 =>
      rcases List.mem_cons.1 h with rfl | h
      · exact Nat.mod_lt _ (Nat.lt_trans Nat.one_pos r.one_lt_base)
      · exact ih _ (Nat.div_lt_self (by omega) r.one_lt_base) (by rwa [digits, List.mem_reverse])

/-- The number that digits stand for, or `most` if it is larger. -/
def ofDigitsUpTo (r : Radix) (most : Nat) (ds : List Nat) : Nat :=
  ds.foldl (fun v d => min most (v * r.base + d)) 0

theorem ofDigitsUpTo_eq (r : Radix) (most : Nat) (ds : List Nat) :
    r.ofDigitsUpTo most ds = min most (r.ofDigits ds) := by
  have step (v d : Nat) : min most (min most v * r.base + d) = min most (v * r.base + d) := by
    by_cases h : v ≤ most
    · rw [Nat.min_eq_right h]
    · have h := Nat.le_of_not_le h
      have hb := Nat.le_mul_of_pos_right most (Nat.lt_trans Nat.one_pos r.one_lt_base)
      have hm := Nat.mul_le_mul_right r.base h
      rw [Nat.min_eq_left h, Nat.min_eq_left (by omega), Nat.min_eq_left (by omega)]
  have run (ds : List Nat) (v : Nat) :
      ds.foldl (fun v d => min most (v * r.base + d)) (min most v) =
        min most (ds.foldl (fun v d => v * r.base + d) v) := by
    induction ds generalizing v with
    | nil => rfl
    | cons d ds ih => rw [List.foldl_cons, List.foldl_cons, step, ih]
  simpa [ofDigitsUpTo, ofDigits] using run ds 0

end Radix

/-- Zeros before `ds` so that there are at least `least` digits. -/
def padDigits (least : Nat) (ds : List Nat) : List Nat := List.replicate (least - ds.length) 0 ++ ds

/-- The byte that shows a digit. -/
def digitByte (upper : Bool) (d : Nat) : UInt8 :=
  if d < 10 then '0'.toUInt8 + UInt8.ofNat d
  else (if upper then 'A'.toUInt8 else 'a'.toUInt8) + UInt8.ofNat (d - 10)

/-- `n / d` rounded to nearest, a half to the even neighbour. -/
def divHalfEven (n d : Nat) : Nat :=
  let q := n / d
  let r := n % d
  if d < 2 * r ∨ (2 * r = d ∧ q % 2 = 1) then q + 1 else q

end LogRelay
