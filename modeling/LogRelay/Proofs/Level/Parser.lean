import LogRelay.Level.Parser
import LogRelay.Proofs.Text.Blank
import Mathlib.Data.List.Induction

/-!
# Texts that stand for levels

A level is written as a number or as a word. `NumberText` and `vocabulary` say which texts are which, without a word on
how they are read: a number has one or more digits, any of them zeros, and maybe a plus sign, and a word counts in any
case. `parse` reads just these (`reads_numbers_and_words`), and its fault tells a number that is no ordinal from any
other text, which a number beyond 32 bits is too.
-/

namespace LogRelay.Level

/-- The decimal digits of a number, with zeros in front of it or not. -/
inductive Digits : List Char → Nat → Prop where
  | one {d : Nat} (h : d < 10) : Digits [Nat.digitChar d] d
  | more {cs : List Char} {n d : Nat} (h : Digits cs n) (hd : d < 10) : Digits (cs ++ [Nat.digitChar d]) (10 * n + d)

/-- A number as it may be written: its digits, behind a plus sign or not. -/
inductive NumberText (t : String) (n : Nat) : Prop where
  | plain (h : Digits t.toList n)
  | signed {cs : List Char} (ht : t.toList = '+' :: cs) (h : Digits cs n)

/-- The words for levels, in lower case. -/
def vocabulary : List (String × Level) :=
  [("x", off), ("none", off), ("off", off), ("e", error), ("error", error), ("w", warn), ("warn", warn),
   ("warning", warn), ("i", info), ("info", info), ("d", debug), ("debug", debug), ("t", trace), ("trace", trace)]

/-- The text `t`, without blanks around it, stands for a level. -/
inductive Written (t : String) : Level → Prop where
  | number {l : Level} (h : NumberText t l.ordinal) : Written t l
  | word {w : String} {l : Level} (hw : (w, l) ∈ vocabulary) (h : Text.SameLetters t w) : Written t l

/-- The text `t`, without blanks around it, stands for no level, and this is how it is said. -/
inductive Misread (t : String) : String → Prop where
  | number {n : Nat} (h : NumberText t n) (hle : 6 ≤ n) (hlt : n < UInt32.size) :
      Misread t ("invalid log level " ++ toString n)
  | text (hn : ∀ n, NumberText t n → UInt32.size ≤ n) (hw : ∀ w l, (w, l) ∈ vocabulary → ¬ Text.SameLetters t w) :
      Misread t ("invalid log level " ++ Text.quoted t)

/-! ## Digits -/

theorem digit?_eq_some_iff {c : Char} {d : Nat} : digit? c = some d ↔ d < 10 ∧ c = Nat.digitChar d := by
  have hrange : c.isDigit = true ↔ 48 ≤ c.toNat ∧ c.toNat ≤ 57 := by
    rw [Char.isDigit, Bool.and_eq_true, decide_eq_true_iff, decide_eq_true_iff]
    exact Iff.rfl
  have hdigit : d < 10 → (c = Nat.digitChar d ↔ c.toNat = 48 + d) := fun hd => by
    rw [← Char.toNat_inj, Nat.toNat_digitChar_of_lt_ten hd]
  rw [digit?]
  split
  · next hc =>
    rw [hrange] at hc
    rw [Option.some_inj, show '0'.toNat = 48 from rfl]
    constructor
    · rintro rfl
      exact ⟨by omega, (hdigit (by omega)).2 (by omega)⟩
    · rintro ⟨hd, hc'⟩
      have := (hdigit hd).1 hc'
      omega
  · next hc =>
    rw [hrange] at hc
    exact ⟨nofun, fun ⟨hd, hc'⟩ => absurd ((hdigit hd).1 hc') (by omega)⟩

theorem mapM_digit?_eq_some_iff {cs : List Char} {ds : List Nat} :
    cs.mapM digit? = some ds ↔ (∀ d ∈ ds, d < 10) ∧ cs = ds.map Nat.digitChar := by
  induction cs generalizing ds with
  | nil => cases ds <;> simp
  | cons c cs ih =>
    rw [List.mapM_cons, Option.bind_eq_bind, Option.bind_eq_some_iff]
    constructor
    · rintro ⟨d, hd, h⟩
      obtain ⟨ds', hds, he⟩ := Option.bind_eq_some_iff.1 h
      obtain rfl := Option.some.inj he
      obtain ⟨hlt, hc⟩ := digit?_eq_some_iff.1 hd
      obtain ⟨hall, hcs⟩ := ih.1 hds
      exact ⟨List.forall_mem_cons.2 ⟨hlt, hall⟩, by rw [List.map_cons, hc, hcs]⟩
    · rintro ⟨hall, he⟩
      cases ds with
      | nil => cases he
      | cons d ds =>
        obtain ⟨hlt, hall⟩ := List.forall_mem_cons.1 hall
        obtain ⟨hc, hcs⟩ := List.cons.inj he
        exact ⟨d, digit?_eq_some_iff.2 ⟨hlt, hc⟩, Option.bind_eq_some_iff.2 ⟨ds, ih.2 ⟨hall, hcs⟩, rfl⟩⟩

theorem digits_iff {cs : List Char} {n : Nat} :
    Digits cs n ↔ ∃ ds, ds ≠ [] ∧ cs.mapM digit? = some ds ∧ Radix.decimal.ofDigits ds = n := by
  simp only [mapM_digit?_eq_some_iff]
  constructor
  · intro h
    induction h with
    | @one d hd => exact ⟨[d], List.cons_ne_nil _ _, ⟨by simpa using hd, rfl⟩, by simp [Radix.ofDigits]⟩
    | @more cs n d h hd ih =>
      obtain ⟨ds, -, ⟨hall, rfl⟩, rfl⟩ := ih
      refine ⟨ds ++ [d], by simp, ⟨?_, by simp⟩, ?_⟩
      · exact List.forall_mem_append.2 ⟨hall, by simpa using hd⟩
      · rw [Radix.ofDigits_append_singleton, Nat.mul_comm]
        rfl
  · rintro ⟨ds, hne, ⟨hall, rfl⟩, rfl⟩
    induction ds using List.reverseRecOn with
    | nil => exact absurd rfl hne
    | append_singleton ds d ih =>
      obtain ⟨hall, hd⟩ := List.forall_mem_append.1 hall
      have hd : d < 10 := by simpa using hd
      rw [Radix.ofDigits_append_singleton, Nat.mul_comm, List.map_append]
      by_cases hnil : ds = []
      · subst hnil
        simpa [Radix.ofDigits] using Digits.one hd
      · exact .more (ih hnil hall) hd

theorem unsigned?_eq_some_iff {limit n : Nat} {cs : List Char} :
    unsigned? limit cs = some n ↔ Digits cs n ∧ n < limit := by
  have hnil {ds : List Nat} (h : cs.mapM digit? = some ds) : cs ≠ [] ↔ ds ≠ [] := by
    rw [(mapM_digit?_eq_some_iff.1 h).2, Ne, List.map_eq_nil_iff]
  rw [unsigned?, digits_iff]
  split
  · next hcs =>
    refine ⟨nofun, ?_⟩
    rintro ⟨⟨ds, hne, h, -⟩, -⟩
    exact absurd hcs ((hnil h).2 hne)
  · next hcs =>
    rw [Option.filter_eq_some_iff, Option.map_eq_some_iff]
    simp only [Radix.ofDigitsUpTo_eq, decide_eq_true_eq]
    constructor
    · rintro ⟨⟨ds, h, rfl⟩, hlt⟩
      exact ⟨⟨ds, (hnil h).1 hcs, h, by omega⟩, hlt⟩
    · rintro ⟨⟨ds, -, h, rfl⟩, hlt⟩
      exact ⟨⟨ds, h, by omega⟩, hlt⟩

theorem plus_not_digit {cs : List Char} {n : Nat} : ¬ Digits ('+' :: cs) n := by
  rw [digits_iff]
  rintro ⟨ds, -, h, -⟩
  obtain ⟨d, hd, -⟩ := Option.bind_eq_some_iff.1 (List.mapM_cons.symm.trans h)
  cases hd

theorem number?_eq_some_iff {t : String} {n : Nat} : number? t.toList = some n ↔ NumberText t n ∧ n < UInt32.size := by
  have hsize : Nat.pow 2 32 = UInt32.size := rfl
  unfold number?
  split
  · next cs ht =>
    rw [unsigned?_eq_some_iff, hsize]
    refine and_congr_left fun _ => ⟨.signed ht, fun h => ?_⟩
    cases h with
    | plain h => exact absurd (ht ▸ h) plus_not_digit
    | signed ht' h => rwa [(List.cons.inj (ht.symm.trans ht')).2]
  · next ht =>
    rw [unsigned?_eq_some_iff, hsize]
    refine and_congr_left fun _ => ⟨.plain, fun h => ?_⟩
    cases h with
    | plain h => exact h
    | signed ht' h => exact absurd ht' (ht _)

/-! ## Words -/

theorem ofWord?_eq_some_iff {w : String} {l : Level} : ofWord? w = some l ↔ (w, l) ∈ vocabulary := by
  constructor
  · intro h
    have hw : l.words.contains w = true := List.find?_some (p := fun l : Level => l.words.contains w) h
    have hall : ∀ l : Level, ∀ w ∈ l.words, (w, l) ∈ vocabulary := by
      intro l
      cases l <;> decide
    exact hall l w (List.contains_iff_mem.1 hw)
  · have hall : ∀ e ∈ vocabulary, ofWord? e.1 = some e.2 := by decide
    exact hall (w, l)

theorem Digits.head {cs : List Char} {n : Nat} (h : Digits cs n) : ∃ c, cs.head? = some c ∧ c.toNat < 65 := by
  induction h with
  | @one d hd =>
    refine ⟨_, rfl, ?_⟩
    rw [Nat.toNat_digitChar_of_lt_ten hd]
    omega
  | more h hd ih =>
    obtain ⟨c, hc, hlt⟩ := ih
    exact ⟨c, by rw [List.head?_append, hc]; rfl, hlt⟩

theorem NumberText.head {t : String} {n : Nat} (h : NumberText t n) :
    ∃ c, t.toList.head? = some c ∧ c.toNat < 65 := by
  cases h with
  | plain h => exact h.head
  | signed ht h => exact ⟨'+', by rw [ht]; rfl, by decide⟩

/-- A number begins with none of the letters that words begin with. -/
theorem NumberText.not_word {t w : String} {n : Nat} {l : Level} (h : NumberText t n) (hw : (w, l) ∈ vocabulary) :
    ¬ Text.SameLetters t w := by
  intro hs
  have hwords : ∀ e ∈ vocabulary, e.1.toList.head?.any (fun c => 97 ≤ c.toNat) = true := by decide
  obtain ⟨d, hd, hle⟩ := (Option.any_eq_true _ _).1 (hwords (w, l) hw)
  replace hle := of_decide_eq_true hle
  obtain ⟨c, hc, hlt⟩ := h.head
  obtain ⟨cs, hcs⟩ := List.head?_eq_some_iff.1 hc
  obtain ⟨ds, hds⟩ := List.head?_eq_some_iff.1 hd
  rw [Text.SameLetters, hcs, hds] at hs
  cases hs with
  | cons hsame _ => rcases hsame with rfl | ⟨i, hi, hcase⟩ <;> omega

/-! ## Reading -/

theorem ofOrdinal?_eq_some_iff {n : Nat} {l : Level} : ofOrdinal? n = some l ↔ n = l.ordinal := by
  constructor
  · intro h
    obtain ⟨hn, rfl⟩ := List.getElem?_eq_some_iff.1 h
    have hall : ∀ i : Fin 6, i.val = (all.get i).ordinal := by decide
    exact hall ⟨n, hn⟩
  · rintro rfl
    exact ofOrdinal?_ordinal l

theorem ofNumber_eq_ok_iff {n : Nat} {l : Level} : ofNumber n = .ok l ↔ n = l.ordinal := by
  rw [← ofOrdinal?_eq_some_iff, ofNumber]
  cases ofOrdinal? n <;> simp

theorem ofNumber_eq_error_iff {n : Nat} {f : Fault} : ofNumber n = .error f ↔ 6 ≤ n ∧ f = .levelNumber n := by
  have hnone : ofOrdinal? n = none ↔ 6 ≤ n := List.getElem?_eq_none_iff
  rw [← hnone, ofNumber]
  cases ofOrdinal? n <;> simp [eq_comm]

section
variable {s t : String}

theorem parse_of_number (ht : Text.Trimmed s t) {n : Nat} (hn : NumberText t n) (hlt : n < UInt32.size) :
    parse s = ofNumber n := by
  simp only [parse, ← Text.trimmed_iff.1 ht, number?_eq_some_iff.2 ⟨hn, hlt⟩]

theorem lower_eq_word {w : String} {l : Level} (hw : (w, l) ∈ vocabulary) :
    Text.lower t = w ↔ Text.SameLetters t w := by
  have hlower : ∀ e ∈ vocabulary, Text.lower e.1 = e.1 := by decide
  rw [← Text.lower_eq_lower_iff, hlower (w, l) hw]

theorem parse_of_word (ht : Text.Trimmed s t) {w : String} {l : Level} (hw : (w, l) ∈ vocabulary)
    (hs : Text.SameLetters t w) : parse s = .ok l := by
  have hn : number? t.toList = none := Option.eq_none_iff_forall_ne_some.2 fun n hn =>
    (number?_eq_some_iff.1 hn).1.not_word hw hs
  simp only [parse, ← Text.trimmed_iff.1 ht, hn, (lower_eq_word hw).2 hs, ofWord?_eq_some_iff.2 hw]

theorem parse_of_neither (ht : Text.Trimmed s t) (hn : ∀ n, NumberText t n → UInt32.size ≤ n)
    (hw : ∀ w l, (w, l) ∈ vocabulary → ¬ Text.SameLetters t w) : parse s = .error (.levelText t) := by
  have hnumber : number? t.toList = none := Option.eq_none_iff_forall_ne_some.2 fun n h => by
    obtain ⟨hnum, hlt⟩ := number?_eq_some_iff.1 h
    exact absurd (hn n hnum) (Nat.not_le_of_lt hlt)
  have hword : ofWord? (Text.lower t) = none := Option.eq_none_iff_forall_ne_some.2 fun l h => by
    have hm := ofWord?_eq_some_iff.1 h
    exact hw _ l hm ((lower_eq_word hm).1 rfl)
  simp only [parse, ← Text.trimmed_iff.1 ht, hnumber, hword]

/-- Every text is one of these. -/
theorem number_or_word (t : String) :
    (∃ n, NumberText t n ∧ n < UInt32.size) ∨ (∃ w l, (w, l) ∈ vocabulary ∧ Text.SameLetters t w) ∨
      (∀ n, NumberText t n → UInt32.size ≤ n) ∧ ∀ w l, (w, l) ∈ vocabulary → ¬ Text.SameLetters t w := by
  by_cases hn : ∃ n, NumberText t n ∧ n < UInt32.size
  · exact .inl hn
  by_cases hw : ∃ w l, (w, l) ∈ vocabulary ∧ Text.SameLetters t w
  · exact .inr (.inl hw)
  exact .inr (.inr ⟨fun n h => Nat.le_of_not_lt fun hlt => hn ⟨n, h, hlt⟩, fun w l hm hs => hw ⟨w, l, hm, hs⟩⟩)

theorem parse_eq_ok_iff (ht : Text.Trimmed s t) {l : Level} : parse s = .ok l ↔ Written t l := by
  constructor
  · intro h
    rcases number_or_word t with ⟨n, hn, hlt⟩ | ⟨w, l', hw, hs⟩ | ⟨hn, hw⟩
    · rw [parse_of_number ht hn hlt] at h
      exact .number (ofNumber_eq_ok_iff.1 h ▸ hn)
    · rw [parse_of_word ht hw hs] at h
      exact Except.ok.inj h ▸ .word hw hs
    · rw [parse_of_neither ht hn hw] at h
      cases h
  · intro h
    cases h with
    | number hn =>
      have hlt : l.ordinal < UInt32.size := by cases l <;> decide
      rw [parse_of_number ht hn hlt]
      exact ofNumber_eq_ok_iff.2 rfl
    | word hw hs => exact parse_of_word ht hw hs

theorem fault_of_parse (ht : Text.Trimmed s t) {f : Fault} (h : parse s = .error f) :
    (∃ n, NumberText t n ∧ 6 ≤ n ∧ n < UInt32.size ∧ f = .levelNumber n) ∨
      (∀ n, NumberText t n → UInt32.size ≤ n) ∧ (∀ w l, (w, l) ∈ vocabulary → ¬ Text.SameLetters t w) ∧
        f = .levelText t := by
  rcases number_or_word t with ⟨n, hn, hlt⟩ | ⟨w, l, hw, hs⟩ | ⟨hn, hw⟩
  · rw [parse_of_number ht hn hlt] at h
    obtain ⟨hle, rfl⟩ := ofNumber_eq_error_iff.1 h
    exact .inl ⟨n, hn, hle, hlt, rfl⟩
  · rw [parse_of_word ht hw hs] at h
    cases h
  · rw [parse_of_neither ht hn hw] at h
    exact .inr ⟨hn, hw, (Except.error.inj h).symm⟩

theorem exists_parse_eq_error_iff (ht : Text.Trimmed s t) {m : String} :
    (∃ f, parse s = .error f ∧ f.message = m) ↔ Misread t m := by
  constructor
  · rintro ⟨f, h, rfl⟩
    rcases fault_of_parse ht h with ⟨n, hn, hle, hlt, rfl⟩ | ⟨hn, hw, rfl⟩
    · exact .number hn hle hlt
    · exact .text hn hw
  · intro h
    cases h with
    | number hn hle hlt => exact ⟨_, (parse_of_number ht hn hlt).trans (ofNumber_eq_error_iff.2 ⟨hle, rfl⟩), rfl⟩
    | text hn hw => exact ⟨_, parse_of_neither ht hn hw, rfl⟩

theorem code_of_parse {f : Fault} (h : parse s = .error f) : f.code = -22 := by
  rcases fault_of_parse (Text.trimmed_trim s) h with ⟨n, -, -, -, rfl⟩ | ⟨-, -, rfl⟩ <;> rfl

end

/-- A text is read as a level if and only if what is left of it without the blanks around it is written as one: as its
ordinal or as one of its words. Any other text is a fault, which shows a number that fits 32 bits in plain digits and
all else in quotes. -/
theorem reads_numbers_and_words (s : String) :
    ∃ t, Text.Trimmed s t ∧ (∀ l, parse s = .ok l ↔ Written t l) ∧
      ∀ f, parse s = .error f → f.code = -22 ∧
        ((∃ n, NumberText t n ∧ 6 ≤ n ∧ n < UInt32.size ∧ f.message = "invalid log level " ++ toString n) ∨
          (∀ n, NumberText t n → UInt32.size ≤ n) ∧ f.message = "invalid log level " ++ Text.quoted t) := by
  have ht := Text.trimmed_trim s
  refine ⟨Text.trim s, ht, fun l => parse_eq_ok_iff ht, fun f h => ⟨code_of_parse h, ?_⟩⟩
  rcases fault_of_parse ht h with ⟨n, hn, hle, hlt, rfl⟩ | ⟨hn, -, rfl⟩
  · exact .inl ⟨n, hn, hle, hlt, rfl⟩
  · exact .inr ⟨hn, rfl⟩

end LogRelay.Level
