import LogRelay.Text.Blank
import Mathlib.Data.List.Forall2
import Mathlib.Data.List.TakeWhile

/-!
# Trimmed texts and letters in either case

The blanks are the 25 characters of `whiteSpace` (`isBlank_iff`). `Trimmed` says what is left of a text without those at
its ends, and `trim` is the one text of which it holds (`trimmed_iff`). Two texts that differ only in the case of their
letters have the same form in lower case (`lower_eq_lower_iff`), which is the one of them without a capital
(`lowered_iff`).
-/

namespace LogRelay.Text

/-- The characters with the property White_Space. -/
def whiteSpace : List Char :=
  ['\t', '\n', '\u000B', '\u000C', '\r', ' ', '\u0085', '\u00A0', '\u1680', '\u2000', '\u2001', '\u2002', '\u2003',
    '\u2004', '\u2005', '\u2006', '\u2007', '\u2008', '\u2009', '\u200A', '\u2028', '\u2029', '\u202F', '\u205F',
    '\u3000']

/-- `t` is what is left of `s` without the blanks at its ends. -/
structure Trimmed (s t : String) : Prop where
  ends : ∃ front back, s.toList = front ++ t.toList ++ back ∧ (∀ c ∈ front, c ∈ whiteSpace) ∧ ∀ c ∈ back, c ∈ whiteSpace
  first : ∀ c, t.toList.head? = some c → c ∉ whiteSpace
  last : ∀ c, t.toList.getLast? = some c → c ∉ whiteSpace

theorem isBlank_iff {c : Char} : isBlank c = true ↔ c ∈ whiteSpace := by
  have hmem : c ∈ whiteSpace ↔ c.toNat ∈ whiteSpace.map Char.toNat := by
    rw [List.mem_map]
    exact ⟨fun h => ⟨c, h, rfl⟩, fun ⟨d, hd, h⟩ => Char.toNat_inj.1 h ▸ hd⟩
  have hcodes : whiteSpace.map Char.toNat =
      [9, 10, 11, 12, 13, 32, 133, 160, 5760, 8192, 8193, 8194, 8195, 8196, 8197, 8198, 8199, 8200, 8201, 8202, 8232, 8233,
        8239, 8287, 12288] := rfl
  rw [hmem, hcodes]
  simp only [isBlank, blankRanges, List.any_cons, List.any_nil, Bool.or_eq_true, Bool.and_eq_true, decide_eq_true_eq,
    List.mem_cons, List.not_mem_nil, Bool.false_eq_true, or_false]
  omega

theorem isBlank_eq_false_iff {c : Char} : isBlank c = false ↔ c ∉ whiteSpace := by
  rw [← isBlank_iff, Bool.not_eq_true]

/-! ## Trimming -/

theorem dropWhile_of_head? {α : Type} {p : α → Bool} {l : List α} (h : ∀ a, l.head? = some a → p a = false) :
    l.dropWhile p = l := by
  cases l with
  | nil => rfl
  | cons a l => rw [List.dropWhile_cons_of_neg (by simp [h a rfl])]

theorem head?_dropWhile {α : Type} {p : α → Bool} {l : List α} {a : α} (h : (l.dropWhile p).head? = some a) :
    p a = false := by
  have hnot := List.head?_dropWhile_not p l
  rwa [h] at hnot

theorem trimChars_ends {front cs back : List Char} (hf : ∀ c ∈ front, isBlank c) (hb : ∀ c ∈ back, isBlank c)
    (first : ∀ c, cs.head? = some c → isBlank c = false) (last : ∀ c, cs.getLast? = some c → isBlank c = false) :
    trimChars (front ++ cs ++ back) = cs := by
  have hback : (cs ++ back).reverse.dropWhile isBlank = cs.reverse := by
    rw [List.reverse_append, List.dropWhile_append_of_pos fun c hc => hb c (List.mem_reverse.1 hc)]
    exact dropWhile_of_head? fun c hc => last c (List.head?_reverse ▸ hc)
  rw [trimChars, List.append_assoc, List.dropWhile_append_of_pos hf]
  cases cs with
  | nil =>
    -- nothing but blanks: the first pass takes them all
    have hnil : back.dropWhile isBlank = [] := List.dropWhile_eq_nil_iff.2 hb
    rw [List.nil_append, hnil]
    rfl
  | cons c cs =>
    have hfront : (c :: cs ++ back).dropWhile isBlank = c :: cs ++ back := dropWhile_of_head? fun d hd => first d hd
    rw [hfront, hback, List.reverse_reverse]

theorem trimmed_trim (s : String) : Trimmed s (trim s) := by
  have ht : (trim s).toList = trimChars s.toList := String.toList_ofList
  have hfront := List.takeWhile_append_dropWhile (p := isBlank) (l := s.toList)
  have hback := List.takeWhile_append_dropWhile (p := isBlank) (l := (s.toList.dropWhile isBlank).reverse)
  have hmiddle : s.toList.dropWhile isBlank =
      trimChars s.toList ++ ((s.toList.dropWhile isBlank).reverse.takeWhile isBlank).reverse := by
    rw [trimChars, ← List.reverse_append, hback, List.reverse_reverse]
  refine ⟨⟨s.toList.takeWhile isBlank, ((s.toList.dropWhile isBlank).reverse.takeWhile isBlank).reverse, ?_, ?_, ?_⟩,
    fun c hc => ?_, fun c hc => ?_⟩
  · rw [ht, List.append_assoc, ← hmiddle, hfront]
  · exact fun c hc => isBlank_iff.1 (List.mem_takeWhile_imp hc)
  · exact fun c hc => isBlank_iff.1 (List.mem_takeWhile_imp (List.mem_reverse.1 hc))
  · have hc : (s.toList.dropWhile isBlank).head? = some c := by
      rw [hmiddle, List.head?_append, ← ht, hc]
      rfl
    exact isBlank_eq_false_iff.1 (head?_dropWhile hc)
  · rw [ht, trimChars, List.getLast?_reverse] at hc
    exact isBlank_eq_false_iff.1 (head?_dropWhile hc)

/-- There is one way to trim a text. -/
theorem trimmed_iff {s t : String} : Trimmed s t ↔ t = trim s := by
  constructor
  · rintro ⟨⟨front, back, hs, hf, hb⟩, first, last⟩
    have htrim : trimChars (front ++ t.toList ++ back) = t.toList :=
      trimChars_ends (fun c hc => isBlank_iff.2 (hf c hc)) (fun c hc => isBlank_iff.2 (hb c hc))
        (fun c hc => isBlank_eq_false_iff.2 (first c hc)) fun c hc => isBlank_eq_false_iff.2 (last c hc)
    rw [trim, hs, htrim, String.ofList_toList]
  · rintro rfl
    exact trimmed_trim s

theorem isAllBlank_iff {s : String} : isAllBlank s = true ↔ ∀ c ∈ s.toList, c ∈ whiteSpace := by
  simp only [isAllBlank, List.all_eq_true, isBlank_iff]

/-! ## Case -/

/-- The characters are the same, or one letter from A to Z in both cases. -/
def SameLetter (c d : Char) : Prop :=
  c = d ∨ ∃ i < 26, c.toNat = 65 + i ∧ d.toNat = 97 + i ∨ c.toNat = 97 + i ∧ d.toNat = 65 + i

/-- The texts are the same but for the case of letters from A to Z. -/
def SameLetters (s t : String) : Prop := List.Forall₂ SameLetter s.toList t.toList

/-- `t` is `s` but for the case of letters from A to Z, and has none of these as a capital. -/
structure Lowered (s t : String) : Prop where
  letters : SameLetters s t
  small : ∀ c ∈ t.toList, c.toNat < 65 ∨ 90 < c.toNat

theorem toNat_toLower (c : Char) :
    c.toLower.toNat = if 65 ≤ c.toNat ∧ c.toNat ≤ 90 then c.toNat + 32 else c.toNat := by
  have hcase : (c.val ≥ 'A'.val ∧ c.val ≤ 'Z'.val) ↔ 65 ≤ c.toNat ∧ c.toNat ≤ 90 := Iff.rfl
  unfold Char.toLower
  split
  · next h =>
    have hlt : c.toNat ≤ 90 := (hcase.1 h).2
    rw [if_pos (hcase.1 h)]
    show (c.val + ('a'.val - 'A'.val)).toNat = c.val.toNat + 32
    rw [UInt32.toNat_add, show ('a'.val - 'A'.val).toNat = 32 from rfl]
    exact Nat.mod_eq_of_lt (by show c.toNat + 32 < _; omega)
  · next h => rw [if_neg (mt hcase.2 h)]

theorem toLower_eq_iff {c d : Char} : c.toLower = d.toLower ↔ SameLetter c d := by
  rw [SameLetter, ← Char.toNat_inj, ← Char.toNat_inj (c := c), toNat_toLower, toNat_toLower]
  constructor
  · intro h
    split at h <;> split at h
    · exact .inl (by omega)
    · exact .inr ⟨c.toNat - 65, by omega⟩
    · exact .inr ⟨d.toNat - 65, by omega⟩
    · exact .inl h
  · rintro (h | ⟨i, hi, ⟨hc, hd⟩ | ⟨hc, hd⟩⟩)
    · rw [h]
    · rw [if_pos (by omega), if_neg (by omega)]
      omega
    · rw [if_neg (by omega), if_pos (by omega)]
      omega

theorem toList_lower (s : String) : (lower s).toList = s.toList.map Char.toLower := String.toList_ofList

theorem lower_eq_lower_iff {s t : String} : lower s = lower t ↔ SameLetters s t := by
  rw [← String.toList_inj, toList_lower, toList_lower, SameLetters, ← List.forall₂_eq_eq_eq,
    List.forall₂_map_left_iff, List.forall₂_map_right_iff]
  simp only [toLower_eq_iff]

theorem lower_of_small {s : String} (h : ∀ c ∈ s.toList, c.toNat < 65 ∨ 90 < c.toNat) : lower s = s := by
  rw [← String.toList_inj, toList_lower]
  refine (List.map_congr_left fun c hc => ?_).trans s.toList.map_id
  rw [← Char.toNat_inj, toNat_toLower, if_neg (by have := h c hc; omega), id]

/-- There is one way to write a text in lower case. -/
theorem lowered_iff {s t : String} : Lowered s t ↔ t = lower s := by
  constructor
  · rintro ⟨letters, small⟩
    rw [lower_eq_lower_iff.2 letters, lower_of_small small]
  · rintro rfl
    have small : ∀ c ∈ (lower s).toList, c.toNat < 65 ∨ 90 < c.toNat := by
      intro c hc
      rw [toList_lower] at hc
      obtain ⟨d, -, rfl⟩ := List.mem_map.1 hc
      rw [toNat_toLower]
      split <;> omega
    exact ⟨lower_eq_lower_iff.1 (lower_of_small small).symm, small⟩

end LogRelay.Text
