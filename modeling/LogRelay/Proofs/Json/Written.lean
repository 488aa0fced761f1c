import LogRelay.Json
import LogRelay.Proofs.Json.Reader
import LogRelay.Proofs.Numeral
import Mathlib.Data.List.TakeWhile

/-!
# Reading what is written

An object written on one line is read as the object of its fields in their order. The proof follows the reader: what a
string's escapes stand for, then the tokens of each field, then the machine over all of them. Whatever the fields hold,
what is written has no line break in it.
-/

namespace LogRelay.Json

/-! ## Strings -/

theorem hexDigit?_digitByte {d : Nat} (h : d < 16) : hexDigit? (Char.ofNat (digitByte false d).toNat) = some d := by
  have key : ∀ d < 16, hexDigit? (Char.ofNat (digitByte false d).toNat) = some d := by decide
  exact key d h

theorem mapM_hexDigit? {ds : List Nat} (h : ∀ d ∈ ds, d < 16) :
    (ds.map fun d => Char.ofNat (digitByte false d).toNat).mapM hexDigit? = some ds := by
  induction ds with
  | nil => rfl
  | cons d ds ih =>
    obtain ⟨hd, hds⟩ := List.forall_mem_cons.1 h
    simp [hexDigit?_digitByte hd, ih hds]

theorem mapM_hex4 (n : Nat) : (hex4 n).mapM hexDigit? = some (padDigits 4 (Radix.hexadecimal.digits n)) :=
  mapM_hexDigit? fun _ => lt_base_of_mem_padDigits (r := .hexadecimal)

theorem exists_hex4_eq {n : Nat} (h : n < 0x10000) : ∃ a b c d, hex4 n = [a, b, c, d] := by
  have hl : (hex4 n).length = 4 := by
    have := Radix.hexadecimal.length_digits_le (k := 4) h
    rw [hex4, List.length_map, length_padDigits]
    omega
  match hex4 n, hl with
  | [a, b, c, d], _ => exact ⟨a, b, c, d, rfl⟩

/-- A part that stands for the character `c` alone, whatever comes after it. -/
def Part.Is (p : Part) (c : Char) : Prop := ∀ ps, joinParts (p :: ps) = (joinParts ps).map (c :: ·)

theorem Part.char_is (c : Char) : (Part.char c).Is c := fun _ => rfl

theorem Part.unit_is {c : Char} (h : c.toNat < 0xD800) : (Part.unit c.toNat).Is c := by
  intro ps
  rw [joinParts.eq_def]
  simp only [h, true_or, if_true, Char.ofNat_toNat]

theorem readParts_unit {n : Nat} (h : n < 0x10000) (rest : List Char) :
    readParts ('\\' :: 'u' :: hex4 n ++ rest) = (readParts rest).map fun r => (.unit n :: r.1, r.2) := by
  obtain ⟨a, b, c, d, he⟩ := exists_hex4_eq h
  have hm := mapM_hex4 n
  rw [he] at hm ⊢
  show ([a, b, c, d].mapM hexDigit?).bind (fun digits => (readParts rest).bind fun r =>
    some (.unit (Radix.hexadecimal.ofDigits digits) :: r.1, r.2)) = _
  rw [hm, Option.bind_some, ofDigits_padDigits]
  cases readParts rest <;> rfl

theorem readParts_plain {c : Char} (hq : c ≠ '"') (hb : c ≠ '\\') (hc : ¬ c.toNat < 0x20) (rest : List Char) :
    readParts (c :: rest) = (readParts rest).map fun r => (.char c :: r.1, r.2) := by
  rw [readParts.eq_4 _ _ (by simpa using hq) (by simp [hb]) (by simp [hb]), if_neg hc]
  cases readParts rest <;> rfl

theorem readParts_letter {letter c : Char} (h : letterEscape? letter = some c) (hu : letter ≠ 'u') (rest : List Char) :
    readParts ('\\' :: letter :: rest) = (readParts rest).map fun r => (.char c :: r.1, r.2) := by
  rw [readParts.eq_3 _ _ (by simp [hu]), h]
  cases readParts rest <;> rfl

/-- The three ways in which a character is written. -/
theorem escapeChar_cases (c : Char) :
    (∃ letter, escapeChar c = ['\\', letter] ∧ letterEscape? letter = some c ∧ letter ≠ 'u') ∨
      (escapeChar c = '\\' :: 'u' :: hex4 c.toNat ∧ c.toNat < 0x20) ∨
      (escapeChar c = [c] ∧ c ≠ '"' ∧ c ≠ '\\' ∧ ¬ c.toNat < 0x20) := by
  unfold escapeChar
  iterate 7
    split
    · next h =>
      subst h
      exact .inl ⟨_, rfl, rfl, by decide⟩
  split
  · next h => exact .inr (.inl ⟨rfl, h⟩)
  · next hq hb _ _ _ _ _ hc => exact .inr (.inr ⟨rfl, hq, hb, hc⟩)

/-- An escaped character is read as one part, which stands for it. -/
theorem exists_part (c : Char) :
    ∃ p : Part, p.Is c ∧
      ∀ rest, readParts (escapeChar c ++ rest) = (readParts rest).map fun r => (p :: r.1, r.2) := by
  rcases escapeChar_cases c with ⟨letter, he, hl, hu⟩ | ⟨he, hc⟩ | ⟨he, hq, hb, hc⟩
  · exact ⟨.char c, Part.char_is c, fun rest => he ▸ readParts_letter hl hu rest⟩
  · exact ⟨.unit c.toNat, Part.unit_is (by omega), fun rest => he ▸ readParts_unit (by omega) rest⟩
  · exact ⟨.char c, Part.char_is c, fun rest => he ▸ readParts_plain hq hb hc rest⟩

theorem exists_parts (cs rest : List Char) :
    ∃ ps, joinParts ps = some cs ∧ readParts (cs.flatMap escapeChar ++ '"' :: rest) = some (ps, rest) := by
  induction cs with
  | nil => exact ⟨[], rfl, by rw [List.flatMap_nil, List.nil_append, readParts]⟩
  | cons c cs ih =>
    obtain ⟨ps, hj, hr⟩ := ih
    obtain ⟨p, hp, hc⟩ := exists_part c
    refine ⟨p :: ps, by rw [hp, hj, Option.map_some], ?_⟩
    rw [List.flatMap_cons, List.append_assoc, hc, hr, Option.map_some]

theorem readString_escaped (s : String) (rest : List Char) :
    readString (s.toList.flatMap escapeChar ++ '"' :: rest) = some (s, rest) := by
  obtain ⟨ps, hj, hr⟩ := exists_parts s.toList rest
  simp [readString, hr, hj]

/-! ## Numbers -/

theorem isDigit_digitByte {d : Nat} (h : d < 10) : isDigit (Char.ofNat (digitByte false d).toNat) = true := by
  have key : ∀ d < 10, isDigit (Char.ofNat (digitByte false d).toNat) = true := by decide
  exact key d h

theorem value_digitByte {d : Nat} (h : d < 10) : (Char.ofNat (digitByte false d).toNat).toNat - '0'.toNat = d := by
  have key : ∀ d < 10, (Char.ofNat (digitByte false d).toNat).toNat - '0'.toNat = d := by decide
  exact key d h

/-- Digits of which the first is no zero, or the only one, are read as a whole number. -/
theorem scalar?_digits {cs : List Char} (hne : cs ≠ []) (hd : ∀ c ∈ cs, isDigit c = true)
    (h0 : ∀ c rest, cs ≠ '0' :: c :: rest) : scalar? cs = some (.number (digitsValue cs) 0) := by
  have hword {w : String} {c : Char} (hc : c ∈ w.toList) (h : isDigit c = false) : cs ≠ w.toList := by
    rintro rfl
    rw [hd c hc] at h
    cases h
  have hm : magnitude? cs = some (digitsValue cs, 0) := by
    unfold magnitude?
    rw [List.takeWhile_eq_self_iff.2 hd, List.dropWhile_eq_nil_iff.2 hd]
    split
    · exact absurd rfl hne
    · exact absurd rfl (h0 _ _)
    · simp [readFraction, exponent?]
  have hn : number? cs = some (.number (digitsValue cs) 0) := by
    unfold number?
    split
    · exact absurd (hd '-' List.mem_cons_self) (by decide)
    · rw [hm, Option.map_some]
  rw [scalar?, if_neg (hword (c := 'n') (by decide) (by decide)), if_neg (hword (c := 't') (by decide) (by decide)),
    if_neg (hword (c := 'f') (by decide) (by decide)), hn]

theorem digitsValue_map {ds : List Nat} (h : ∀ d ∈ ds, d < 10) :
    digitsValue (ds.map fun d => Char.ofNat (digitByte false d).toNat) = Radix.decimal.ofDigits ds := by
  rw [digitsValue, List.map_map]
  congr 1
  exact (List.map_congr_left fun d hd => value_digitByte (h d hd)).trans (List.map_id ds)

theorem scalar?_number (n : Nat) : scalar? (Value.number n).chars = some (.number n 0) := by
  by_cases hn : n = 0
  · subst hn
    rw [Value.chars, Radix.digits_zero]
    rfl
  · obtain ⟨d, ds, he⟩ := List.exists_cons_of_ne_nil (Radix.decimal.digits_ne_nil hn)
    have hd : ∀ d ∈ Radix.decimal.digits n, d < 10 := fun _ => Radix.lt_base_of_mem_digits (r := .decimal)
    have hc : (Value.number n).chars = (Radix.decimal.digits n).map fun d => Char.ofNat (digitByte false d).toNat := by
      rw [Value.chars, padDigits, he, List.length_cons, Nat.sub_eq_zero_of_le (by omega)]
      rfl
    rw [hc, scalar?_digits, digitsValue_map hd, Radix.ofDigits_digits]
    · simp [he]
    · intro c hc
      obtain ⟨d, hm, rfl⟩ := List.mem_map.1 hc
      exact isDigit_digitByte (hd d hm)
    · intro c rest h0
      -- the first digit would be a zero
      rw [he] at h0
      have h := congrArg (·.toNat - '0'.toNat) (List.cons.inj h0).1
      rw [value_digitByte (hd d (he ▸ List.mem_cons_self))] at h
      exact Radix.decimal.head?_digits_ne_zero n (by rw [he, h]; rfl)

/-! ## Tokens -/

def Value.token : Value → Token
  | .null => .scalar .null
  | .number n => .scalar (.number n 0)
  | .text s => .text s

def Value.tree : Value → Tree
  | .null => .null
  | .number n => .number n 0
  | .text s => .text s

def fieldTokens (f : String × Value) : List Token := [.text f.1, .mark .colon, f.2.token]

theorem lex_cons {c : Char} {rest rest' : List Char} {t : Token} (hb : isBlank c = false)
    (h : readToken c rest = some (t, rest')) : lex (c :: rest) = (lex rest').map (t :: ·) := by
  rw [lex, hb, if_neg Bool.false_ne_true]
  split
  · next h' =>
    cases h.symm.trans h'
    rfl
  · next h' => cases h.symm.trans h'

theorem lex_mark {c : Char} {m : Mark} (h : Mark.ofChar? c = some m) (hb : isBlank c = false) (rest : List Char) :
    lex (c :: rest) = (lex rest).map (.mark m :: ·) :=
  lex_cons hb (by rw [readToken, h])

theorem lex_quote (s : String) (rest : List Char) : lex (quote s ++ rest) = (lex rest).map (.text s :: ·) := by
  have hr : readToken '"' (s.toList.flatMap escapeChar ++ '"' :: rest) = some (.text s, rest) := by
    show (readString (s.toList.flatMap escapeChar ++ '"' :: rest)).map (fun s => (Token.text s.1, s.2)) = _
    rw [readString_escaped, Option.map_some]
  have hq : quote s ++ rest = '"' :: (s.toList.flatMap escapeChar ++ '"' :: rest) := by simp [quote]
  rw [hq, lex_cons rfl hr]

/-- A scalar ends before a character that it cannot have. -/
theorem lex_scalar {cs : List Char} {t : Tree} (hne : cs ≠ []) (hc : ∀ c ∈ cs, inScalar c = true)
    (h : scalar? cs = some t) {d : Char} (hd : inScalar d = false) (rest : List Char) :
    lex (cs ++ d :: rest) = (lex (d :: rest)).map (.scalar t :: ·) := by
  obtain ⟨c, cs, rfl⟩ := List.exists_cons_of_ne_nil hne
  obtain ⟨h0, hcs⟩ := List.forall_mem_cons.1 hc
  have htake : (cs ++ d :: rest).takeWhile inScalar = cs := by
    rw [List.takeWhile_append_of_pos hcs, List.takeWhile_cons_of_neg (by simp [hd]), List.append_nil]
  have hdrop : (cs ++ d :: rest).dropWhile inScalar = d :: rest := by
    rw [List.dropWhile_append_of_pos hcs, List.dropWhile_cons_of_neg (by simp [hd])]
  obtain ⟨⟨hb, hm⟩, hq⟩ : (isBlank c = false ∧ Mark.ofChar? c = none) ∧ c ≠ '"' := by simpa [inScalar] using h0
  have hr : readToken c (cs ++ d :: rest) = some (.scalar t, d :: rest) := by
    simp only [readToken, hm, if_neg hq, htake, hdrop, h, Option.map_some]
  rw [List.cons_append, lex_cons hb hr]

theorem inScalar_digitByte {d : Nat} (h : d < 10) : inScalar (Char.ofNat (digitByte false d).toNat) = true := by
  have key : ∀ d < 10, inScalar (Char.ofNat (digitByte false d).toNat) = true := by decide
  exact key d h

theorem number_chars_ne_nil (n : Nat) : (Value.number n).chars ≠ [] := by
  intro h
  have hl := congrArg List.length h
  rw [Value.chars, List.length_map, length_padDigits, List.length_nil] at hl
  omega

theorem lex_value (v : Value) {d : Char} (hd : inScalar d = false) (rest : List Char) :
    lex (v.chars ++ d :: rest) = (lex (d :: rest)).map (v.token :: ·) := by
  cases v with
  | null => exact lex_scalar (by decide) (List.all_eq_true.1 rfl) rfl hd rest
  | number n =>
    refine lex_scalar (number_chars_ne_nil n) (fun c hc => ?_) (scalar?_number n) hd rest
    obtain ⟨e, hm, rfl⟩ := List.mem_map.1 hc
    exact inScalar_digitByte (lt_base_of_mem_padDigits hm)
  | text s => exact lex_quote s (d :: rest)

/-- A field is read up to the comma or the brace after it. -/
theorem lex_field (f : String × Value) {d : Char} (hd : inScalar d = false) (rest : List Char) :
    lex (fieldChars f ++ d :: rest) = (lex (d :: rest)).map (fieldTokens f ++ ·) := by
  rw [fieldChars, List.append_assoc, lex_quote, List.cons_append, lex_mark rfl rfl, lex_value f.2 hd rest,
    Option.map_map, Option.map_map]
  rfl

/-! ## Objects -/

/-- The tokens behind an opening brace. -/
def membersTokens : List (String × Value) → List Token
  | [] => [.mark .endObject]
  | [f] => fieldTokens f ++ [.mark .endObject]
  | f :: g :: fs => fieldTokens f ++ .mark .comma :: membersTokens (g :: fs)

theorem lex_members (fields : List (String × Value)) (rest : List Char) :
    lex ([','].intercalate (fields.map fieldChars) ++ '\x7d' :: rest) =
      (lex rest).map (membersTokens fields ++ ·) := by
  fun_induction membersTokens fields with
  | case1 => exact lex_mark rfl rfl rest
  | case2 f =>
    rw [List.map_singleton, List.intercalate_singleton, lex_field f rfl, lex_mark rfl rfl, Option.map_map]
    rfl
  | case3 f g fs ih =>
    rw [List.map_cons, List.map_cons, List.intercalate_cons_cons, ← List.map_cons, List.append_assoc, List.append_assoc,
      List.singleton_append, lex_field f rfl, lex_mark rfl rfl, ih, Option.map_map, Option.map_map]
    rfl

def member (f : String × Value) : String × Tree := (f.1, f.2.tree)

namespace Machine

variable (frames : List Frame) (members : List (String × Tree))

theorem begin_token (v : Value) : begin frames v.token = some (finish frames v.tree) := by cases v <;> rfl

theorem run_field (f : String × Value) :
    (fieldTokens f).foldlM step ⟨frames, .key members⟩ = some ⟨frames, .nextKey (member f :: members)⟩ := by
  show (begin (.object members f.1 :: frames) f.2.token).bind some = _
  rw [begin_token]
  rfl

theorem run_members (f : String × Value) (fs : List (String × Value)) :
    (membersTokens (f :: fs)).foldlM step ⟨frames, .key members⟩ =
      some (finish frames (.object (members.reverse ++ (f :: fs).map member))) := by
  induction fs generalizing f members with
  | nil =>
    rw [membersTokens, List.foldlM_append, run_field, Option.bind_eq_bind, Option.bind_some]
    show some (finish frames (.object (member f :: members).reverse)) = _
    rw [List.reverse_cons, List.map_singleton]
  | cons g fs ih =>
    rw [membersTokens, List.foldlM_append, run_field, Option.bind_eq_bind, Option.bind_some]
    show (membersTokens (g :: fs)).foldlM step ⟨frames, .key (member f :: members)⟩ = _
    rw [ih, List.reverse_cons, List.append_assoc, List.singleton_append, List.map_cons (a := f)]

end Machine

/-- An object is read as the object of its fields, in their order, also where blanks follow it. -/
theorem parse_object (fields : List (String × Value)) {rest : List Char} (hr : lex rest = some []) :
    parse (objectChars fields ++ rest) = some (.object (fields.map member)) := by
  have hl : lex (objectChars fields ++ rest) = some (.mark .beginObject :: membersTokens fields) := by
    have ho : objectChars fields ++ rest = '\x7b' :: ([','].intercalate (fields.map fieldChars) ++ '\x7d' :: rest) := by
      simp [objectChars]
    rw [ho, lex_mark rfl rfl, lex_members, hr, Option.map_some, Option.map_some, List.append_nil]
  have hrun : (membersTokens fields).foldlM Machine.step ⟨[], .firstKey⟩ =
      some ⟨[], .nothing (.object (fields.map member))⟩ := by
    match fields with
    | [] => rfl
    | f :: fs =>
      -- only the first key may come where the object may also end
      have hfirst : (membersTokens (f :: fs)).foldlM Machine.step ⟨[], .firstKey⟩ =
          (membersTokens (f :: fs)).foldlM Machine.step ⟨[], .key []⟩ := by
        cases fs <;> rfl
      rw [hfirst, Machine.run_members]
      rfl
  rw [parse, hl]
  show ((membersTokens fields).foldlM Machine.step ⟨[], .firstKey⟩).bind Machine.result? = _
  rw [hrun]
  rfl

/-! ## Line breaks -/

theorem newline_not_mem_escapeChar (c : Char) : '\n' ∉ escapeChar c := by
  rcases escapeChar_cases c with ⟨letter, he, hl, -⟩ | ⟨he, -⟩ | ⟨he, -, -, hc⟩ <;> rw [he] <;> intro h
  · have hn : '\n' = letter := by simpa using h
    rw [← hn] at hl
    cases hl
  · have hn : '\n' ∈ hex4 c.toNat := by simpa using h
    obtain ⟨d, hd, hn⟩ := List.mem_map.1 hn
    have key : ∀ d < 16, Char.ofNat (digitByte false d).toNat ≠ '\n' := by decide
    exact key d (lt_base_of_mem_padDigits hd) hn
  · rw [← List.mem_singleton.1 h] at hc
    exact hc (by decide)

theorem newline_not_mem_quote (s : String) : '\n' ∉ quote s := by
  have h : '\n' ∉ s.toList.flatMap escapeChar := by
    intro h
    obtain ⟨c, -, hc⟩ := List.mem_flatMap.1 h
    exact newline_not_mem_escapeChar c hc
  simpa [quote] using h

theorem newline_not_mem_chars (v : Value) : '\n' ∉ v.chars := by
  cases v with
  | null => decide
  | number n =>
    intro h
    obtain ⟨d, hd, hn⟩ := List.mem_map.1 h
    have key : ∀ d < 10, Char.ofNat (digitByte false d).toNat ≠ '\n' := by decide
    exact key d (lt_base_of_mem_padDigits hd) hn
  | text s => exact newline_not_mem_quote s

theorem newline_not_mem_fieldChars (f : String × Value) : '\n' ∉ fieldChars f := by
  have h := newline_not_mem_quote f.1
  have h' := newline_not_mem_chars f.2
  simp [fieldChars, h, h']

/-- What is written stays on one line. -/
theorem newline_not_mem_objectChars (fields : List (String × Value)) : '\n' ∉ objectChars fields := by
  have h : '\n' ∉ [','].intercalate (fields.map fieldChars) := by
    fun_induction membersTokens fields with
    | case1 => exact List.not_mem_nil
    | case2 f =>
      rw [List.map_singleton, List.intercalate_singleton]
      exact newline_not_mem_fieldChars f
    | case3 f g fs ih =>
      rw [List.map_cons] at ih
      rw [List.map_cons, List.map_cons, List.intercalate_cons_cons]
      simp [newline_not_mem_fieldChars f, ih]
  simpa [objectChars] using h

end LogRelay.Json
