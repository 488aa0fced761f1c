import LogRelay.Interface

/-!
# Layout in memory

Where the fields of the records that programs share lie in memory, on a platform whose addresses take eight bytes.
Fields come in order, each at the first offset that its alignment allows; a record is aligned as strictly as any of its
fields, and its size is a multiple of that.
-/

namespace LogRelay

/-- How many bytes a value takes, and what its offset has to be a multiple of. -/
structure Extent where
  size : Nat
  alignment : Nat
  deriving DecidableEq

namespace Extent

def flag : Extent := ⟨1, 1⟩

def word : Extent := ⟨4, 4⟩

def address : Extent := ⟨8, 8⟩

end Extent

/-- The least multiple of `a` that is not below `n`. -/
def alignUp (n a : Nat) : Nat := n + (a - n % a) % a

theorem le_alignUp (n a : Nat) : n ≤ alignUp n a := Nat.le_add_right _ _

theorem dvd_alignUp {a : Nat} (n : Nat) (ha : 0 < a) : a ∣ alignUp n a := by
  have hn := Nat.div_add_mod n a
  have hlt := Nat.mod_lt n ha
  have hsum : n + (a - n % a) = a * (n / a + 1) := by
    rw [Nat.mul_succ]
    omega
  rw [Nat.dvd_iff_mod_eq_zero, alignUp, Nat.add_mod_mod, hsum, Nat.mul_mod_right]

/-- The fields of a record in order. -/
abbrev Fields := List (String × Extent)

namespace Fields

/-- The offsets of fields of which the first lies at or after `start`. -/
def placeFrom (start : Nat) : Fields → List (String × Nat)
  | [] => []
  | (name, e) :: rest => (name, alignUp start e.alignment) :: placeFrom (alignUp start e.alignment + e.size) rest

/-- The end of fields of which the first lies at or after `start`. -/
def endFrom (start : Nat) : Fields → Nat
  | [] => start
  | (_, e) :: rest => endFrom (alignUp start e.alignment + e.size) rest

def offset? (fs : Fields) (name : String) : Option Nat := (placeFrom 0 fs).lookup name

def extent (fs : Fields) : Extent :=
  let alignment := fs.foldl (fun a f => max a f.2.alignment) 1
  ⟨alignUp (endFrom 0 fs) alignment, alignment⟩

theorem le_endFrom (start : Nat) (fs : Fields) : start ≤ endFrom start fs := by
  induction fs generalizing start with
  | nil => exact Nat.le_refl start
  | cons f fs ih => exact Nat.le_trans (le_alignUp _ _) (Nat.le_trans (Nat.le_add_right _ _) (ih _))

/-- Each field is aligned, and lies before the end of the fields. -/
theorem bounds_of_mem {start : Nat} {fs : Fields} {p : (String × Nat) × String × Extent}
    (hp : p ∈ (placeFrom start fs).zip fs) :
    start ≤ p.1.2 ∧ p.1.2 + p.2.2.size ≤ endFrom start fs ∧ (0 < p.2.2.alignment → p.2.2.alignment ∣ p.1.2) := by
  induction fs generalizing start with
  | nil => cases hp
  | cons f fs ih =>
    rcases List.mem_cons.1 hp with rfl | hp
    · exact ⟨le_alignUp _ _, le_endFrom _ fs, dvd_alignUp start⟩
    · obtain ⟨hstart, hend⟩ := ih hp
      exact ⟨Nat.le_trans (le_alignUp _ _) (Nat.le_trans (Nat.le_add_right _ _) hstart), hend⟩

/-- No field reaches into a later one. -/
theorem placeFrom_apart (start : Nat) (fs : Fields) :
    ((placeFrom start fs).zip fs).Pairwise fun p q => p.1.2 + p.2.2.size ≤ q.1.2 := by
  induction fs generalizing start with
  | nil => exact .nil
  | cons f fs ih => exact .cons (fun q hq => (bounds_of_mem hq).1) (ih _)

/-- The fields of a record are aligned, they do not overlap, and the record holds them. -/
theorem laid_out (fs : Fields) :
    ((placeFrom 0 fs).zip fs).Pairwise (fun p q => p.1.2 + p.2.2.size ≤ q.1.2) ∧
      ∀ p ∈ (placeFrom 0 fs).zip fs,
        (0 < p.2.2.alignment → p.2.2.alignment ∣ p.1.2) ∧ p.1.2 + p.2.2.size ≤ fs.extent.size := by
  refine ⟨placeFrom_apart 0 fs, fun p hp => ?_⟩
  obtain ⟨-, hend, haligned⟩ := bounds_of_mem hp
  exact ⟨haligned, Nat.le_trans hend (le_alignUp _ _)⟩

end Fields

/-- A table of methods with the receiver of their calls. -/
def callbackFields : Fields := [("methods", .address), ("receiver", .address)]

def interfaceFields : Fields := [("type", .address), ("version", .word), ("callbacks", callbackFields.extent)]

def handleFields : Fields := [("interface", interfaceFields.extent), ("level", .word)]

def methodsFields : Fields :=
  [("version", .word), ("log", .address), ("logv", .address), ("logt", .address), ("logtv", .address),
   ("topicInit", .address)]

def topicFields : Fields := [("version", .word), ("name", .address), ("level", .word), ("custom", .flag)]

end LogRelay
