import LogRelay.Text.Utf8
import Mathlib.Data.List.Induction

/-!
# What the decoder has read

`Begun.Sound` is the invariant of a character begun: it can be finished, and the code point of whatever finishes it has
the bytes read as its encoding. With it nothing is lost (`read_bytes`), an encoded character is read as that character
(`foldl_feed_encodeChar`), and what is left at the end is part of a character (`Begun.Sound.incomplete`).
-/

namespace LogRelay.Utf8

/-! ## Encodings by length -/

theorem toNat_charOfNat {n : Nat} (h : n.isValidChar) : (Char.ofNat n).toNat = n := by
  rw [Char.ofNat, dif_pos h]
  rfl

theorem encodeChar_one {v : Nat} (h : v < 0x80) : String.utf8EncodeChar (Char.ofNat v) = [UInt8.ofNat v] := by
  have hv : (Char.ofNat v).val.toNat = v := toNat_charOfNat (.inl (by omega))
  simp only [String.utf8EncodeChar, hv]
  rw [if_pos (by omega)]

theorem encodeChar_two {v : Nat} (h1 : 0x80 ≤ v) (h2 : v < 0x800) :
    String.utf8EncodeChar (Char.ofNat v) = [UInt8.ofNat (0xC0 + v / 64), UInt8.ofNat (0x80 + v % 64)] := by
  have hv : (Char.ofNat v).val.toNat = v := toNat_charOfNat (.inl (by omega))
  have e : v / 64 % 32 + 0xC0 = 0xC0 + v / 64 := by omega
  simp only [String.utf8EncodeChar, hv]
  rw [if_neg (by omega), if_pos (by omega), e, Nat.add_comm (v % 64)]

theorem encodeChar_three {v : Nat} (h1 : 0x800 ≤ v) (h2 : v < 0x10000) (h3 : v.isValidChar) :
    String.utf8EncodeChar (Char.ofNat v) =
      [UInt8.ofNat (0xE0 + v / 4096), UInt8.ofNat (0x80 + v / 64 % 64), UInt8.ofNat (0x80 + v % 64)] := by
  have hv : (Char.ofNat v).val.toNat = v := toNat_charOfNat h3
  have e : v / 4096 % 16 + 0xE0 = 0xE0 + v / 4096 := by omega
  simp only [String.utf8EncodeChar, hv]
  rw [if_neg (by omega), if_neg (by omega), if_pos (by omega), e, Nat.add_comm (v % 64), Nat.add_comm (v / 64 % 64)]

theorem encodeChar_four {v : Nat} (h1 : 0x10000 ≤ v) (h2 : v < 0x110000) :
    String.utf8EncodeChar (Char.ofNat v) =
      [UInt8.ofNat (0xF0 + v / 262144), UInt8.ofNat (0x80 + v / 4096 % 64), UInt8.ofNat (0x80 + v / 64 % 64),
        UInt8.ofNat (0x80 + v % 64)] := by
  have hv : (Char.ofNat v).val.toNat = v := toNat_charOfNat (.inr (by omega))
  have e : v / 262144 % 8 + 0xF0 = 0xF0 + v / 262144 := by omega
  simp only [String.utf8EncodeChar, hv]
  rw [if_neg (by omega), if_neg (by omega), if_neg (by omega), e, Nat.add_comm (v % 64), Nat.add_comm (v / 64 % 64),
    Nat.add_comm (v / 4096 % 64)]

theorem encodeChar_injective {c c' : Char} (h : String.utf8EncodeChar c = String.utf8EncodeChar c') : c = c' := by
  have : String.ofList [c] = String.ofList [c'] := by
    rw [← String.toByteArray_inj]
    simp [List.utf8Encode, h]
  simpa using String.ofList_inj.1 this

/-! ## Bytes -/

theorem ofNat_eq_byte {n : Nat} {b : UInt8} (h : n = b.toNat) : UInt8.ofNat n = b := by
  rw [h, UInt8.ofNat_toNat]

theorem toNat_byteOfNat {n : Nat} (h : n < 256) : (UInt8.ofNat n).toNat = n := UInt8.toNat_ofNat_of_lt h

theorem byteOfNat_between {n : Nat} {low high : UInt8} (h1 : low.toNat ≤ n) (h2 : n ≤ high.toNat) :
    low ≤ UInt8.ofNat n ∧ UInt8.ofNat n ≤ high := by
  have h := toNat_byteOfNat (Nat.lt_of_le_of_lt h2 high.toNat_lt)
  exact ⟨by rwa [UInt8.le_iff_toNat_le, h], by rwa [UInt8.le_iff_toNat_le, h]⟩

/-- A byte after the first of a character. -/
def IsTail (b : UInt8) : Prop := 0x80 ≤ b ∧ b ≤ 0xBF

theorem isTail_byteOfNat (n : Nat) : IsTail (UInt8.ofNat (0x80 + n % 64)) :=
  byteOfNat_between (by change 0x80 ≤ _; omega) (by change _ ≤ 0xBF; omega)

/-! ## First bytes -/

namespace Begun

theorem first?_two {b : UInt8} (h : 0xC2 ≤ b ∧ b ≤ 0xDF) :
    first? b = some ⟨[b], 1, 0x80, 0xBF, b.toNat % 32⟩ := if_pos h

theorem first?_three {b : UInt8} (hb : 0xE0 ≤ b ∧ b ≤ 0xEF) :
    first? b =
      some ⟨[b], 2, if b = 0xE0 then 0xA0 else 0x80, if b = 0xED then 0x9F else 0xBF, b.toNat % 16⟩ := by
  have h1 : 0xE0 ≤ b.toNat := hb.1
  unfold first?
  rw [if_neg fun h => by have : b.toNat ≤ 0xDF := h.2; omega]
  by_cases h3 : b = 0xE0
  · subst h3; rfl
  by_cases h4 : b = 0xED
  · subst h4; rfl
  have h5 : 0xE1 ≤ b := by
    show 0xE1 ≤ b.toNat
    have : b.toNat ≠ 0xE0 := fun h => h3 (UInt8.toNat_inj.1 h)
    omega
  rw [if_neg h3, if_neg h4, if_pos ⟨h5, hb.2⟩, if_neg h3, if_neg h4]

theorem first?_four {b : UInt8} (hb : 0xF0 ≤ b ∧ b ≤ 0xF4) :
    first? b =
      some ⟨[b], 3, if b = 0xF0 then 0x90 else 0x80, if b = 0xF4 then 0x8F else 0xBF, b.toNat % 8⟩ := by
  have h1 : 0xF0 ≤ b.toNat := hb.1
  have h2 : b.toNat ≤ 0xF4 := hb.2
  have : b = 0xF0 ∨ b = 0xF1 ∨ b = 0xF2 ∨ b = 0xF3 ∨ b = 0xF4 := by
    simp only [← UInt8.toNat_inj]
    show b.toNat = 0xF0 ∨ b.toNat = 0xF1 ∨ b.toNat = 0xF2 ∨ b.toNat = 0xF3 ∨ b.toNat = 0xF4
    omega
  rcases this with rfl | rfl | rfl | rfl | rfl <;> rfl

theorem range_of_first? {b : UInt8} {s : Begun} (h : first? b = some s) :
    (0xC2 ≤ b ∧ b ≤ 0xDF) ∨ (0xE0 ≤ b ∧ b ≤ 0xEF) ∨ (0xF0 ≤ b ∧ b ≤ 0xF4) := by
  unfold first? at h
  split at h
  · next hb => exact .inl hb
  split at h
  · next hb => subst hb; decide
  split at h
  · next hb => subst hb; decide
  split at h
  · next hb => exact .inr (.inl ⟨UInt8.le_trans (by decide) hb.1, hb.2⟩)
  split at h
  · next hb => subst hb; decide
  split at h
  · next hb => exact .inr (.inr ⟨UInt8.le_trans (by decide) hb.1, UInt8.le_trans hb.2 (by decide)⟩)
  split at h
  · next hb => subst hb; decide
  · cases h

/-- The bounds on the second of three bytes leave out the overlong forms and the surrogates. -/
theorem bounds_three {b b1 : UInt8} (hb : 0xE0 ≤ b ∧ b ≤ 0xEF) :
    ((if b = 0xE0 then 0xA0 else 0x80) ≤ b1 ∧ b1 ≤ if b = 0xED then 0x9F else 0xBF) ↔
      IsTail b1 ∧ 0x20 ≤ b.toNat % 16 * 64 + b1.toNat % 64 ∧
        (b.toNat % 16 * 64 + b1.toNat % 64 < 0x360 ∨ 0x380 ≤ b.toNat % 16 * 64 + b1.toNat % 64) := by
  have h1 : 0xE0 ≤ b.toNat := hb.1
  have h2 : b.toNat ≤ 0xEF := hb.2
  simp only [IsTail, UInt8.le_iff_toNat_le, ← UInt8.toNat_inj, apply_ite UInt8.toNat, UInt8.reduceToNat]
  split <;> split <;> omega

/-- The bounds on the second of four bytes leave out the overlong forms and all beyond U+10FFFF. -/
theorem bounds_four {b b1 : UInt8} (hb : 0xF0 ≤ b ∧ b ≤ 0xF4) :
    ((if b = 0xF0 then 0x90 else 0x80) ≤ b1 ∧ b1 ≤ if b = 0xF4 then 0x8F else 0xBF) ↔
      IsTail b1 ∧ 0x10 ≤ b.toNat % 8 * 64 + b1.toNat % 64 ∧ b.toNat % 8 * 64 + b1.toNat % 64 < 0x110 := by
  have h1 : 0xF0 ≤ b.toNat := hb.1
  have h2 : b.toNat ≤ 0xF4 := hb.2
  simp only [IsTail, UInt8.le_iff_toNat_le, ← UInt8.toNat_inj, apply_ite UInt8.toNat, UInt8.reduceToNat]
  split <;> split <;> omega

/-! ## Characters begun -/

/-- `rest` takes `s` to its end: as many bytes as are missing, the first within the bounds. -/
structure Finishes (s : Begun) (rest : Bytes) : Prop where
  length : rest.length = s.missing
  head : ∀ b ∈ rest.head?, s.low ≤ b ∧ b ≤ s.high
  tail : ∀ b ∈ rest.tail, IsTail b

/-- The code point of `s` finished by `rest`. -/
def codePoint (s : Begun) (rest : Bytes) : Nat := rest.foldl (fun v b => v * 64 + b.toNat % 64) s.bits

/-- `s` can be finished, and whatever finishes it makes the character whose encoding was read. -/
structure Sound (s : Begun) : Prop where
  bytes_ne_nil : s.bytes ≠ []
  missing_pos : 0 < s.missing
  bounds : 0x80 ≤ s.low ∧ s.low ≤ s.high
  encode : ∀ rest, s.Finishes rest → String.utf8EncodeChar (Char.ofNat (s.codePoint rest)) = s.bytes ++ rest

theorem sound_two {b : UInt8} (hb : 0xC2 ≤ b ∧ b ≤ 0xDF) : Sound ⟨[b], 1, 0x80, 0xBF, b.toNat % 32⟩ where
  bytes_ne_nil := List.cons_ne_nil b []
  missing_pos := Nat.one_pos
  bounds := (by decide : (0x80 : UInt8) ≤ 0x80 ∧ (0x80 : UInt8) ≤ 0xBF)
  encode rest hr := by
    have h1 : 0xC2 ≤ b.toNat := hb.1
    have h2 : b.toNat ≤ 0xDF := hb.2
    match rest, hr.length with
    | [b1], _ =>
      obtain ⟨h3, h4⟩ : 0x80 ≤ b1.toNat ∧ b1.toNat ≤ 0xBF := hr.head b1 rfl
      simp only [codePoint, List.foldl]
      rw [encodeChar_two (by omega) (by omega), ofNat_eq_byte (b := b) (by omega), ofNat_eq_byte (b := b1) (by omega)]
      rfl

theorem sound_three {b : UInt8} (hb : 0xE0 ≤ b ∧ b ≤ 0xEF) :
    Sound ⟨[b], 2, if b = 0xE0 then 0xA0 else 0x80, if b = 0xED then 0x9F else 0xBF, b.toNat % 16⟩ where
  bytes_ne_nil := List.cons_ne_nil b []
  missing_pos := Nat.two_pos
  bounds := by
    show 0x80 ≤ (if b = 0xE0 then (0xA0 : UInt8) else 0x80) ∧
      (if b = 0xE0 then (0xA0 : UInt8) else 0x80) ≤ if b = 0xED then 0x9F else 0xBF
    split
    · next h => subst h; decide
    · split <;> decide
  encode rest hr := by
    have h1 : 0xE0 ≤ b.toNat := hb.1
    have h2 : b.toNat ≤ 0xEF := hb.2
    match rest, hr with
    | [b1, b2], ⟨_, hh, ht⟩ =>
      obtain ⟨h34, h5, h6⟩ := (bounds_three hb).1 (hh b1 rfl)
      obtain ⟨h3, h4⟩ : 0x80 ≤ b1.toNat ∧ b1.toNat ≤ 0xBF := h34
      obtain ⟨h7, h8⟩ : 0x80 ≤ b2.toNat ∧ b2.toNat ≤ 0xBF := ht b2 (by simp)
      simp only [codePoint, List.foldl]
      rw [encodeChar_three (by omega) (by omega) (by unfold Nat.isValidChar; omega),
        ofNat_eq_byte (b := b) (by omega), ofNat_eq_byte (b := b1) (by omega), ofNat_eq_byte (b := b2) (by omega)]
      rfl

theorem sound_four {b : UInt8} (hb : 0xF0 ≤ b ∧ b ≤ 0xF4) :
    Sound ⟨[b], 3, if b = 0xF0 then 0x90 else 0x80, if b = 0xF4 then 0x8F else 0xBF, b.toNat % 8⟩ where
  bytes_ne_nil := List.cons_ne_nil b []
  missing_pos := Nat.succ_pos 2
  bounds := by
    show 0x80 ≤ (if b = 0xF0 then (0x90 : UInt8) else 0x80) ∧
      (if b = 0xF0 then (0x90 : UInt8) else 0x80) ≤ if b = 0xF4 then 0x8F else 0xBF
    split
    · next h => subst h; decide
    · split <;> decide
  encode rest hr := by
    have h1 : 0xF0 ≤ b.toNat := hb.1
    have h2 : b.toNat ≤ 0xF4 := hb.2
    match rest, hr with
    | [b1, b2, b3], ⟨_, hh, ht⟩ =>
      obtain ⟨h34, h5, h6⟩ := (bounds_four hb).1 (hh b1 rfl)
      obtain ⟨h3, h4⟩ : 0x80 ≤ b1.toNat ∧ b1.toNat ≤ 0xBF := h34
      obtain ⟨h7, h8⟩ : 0x80 ≤ b2.toNat ∧ b2.toNat ≤ 0xBF := ht b2 (by simp)
      obtain ⟨h9, h10⟩ : 0x80 ≤ b3.toNat ∧ b3.toNat ≤ 0xBF := ht b3 (by simp)
      simp only [codePoint, List.foldl]
      rw [encodeChar_four (by omega) (by omega), ofNat_eq_byte (b := b) (by omega), ofNat_eq_byte (b := b1) (by omega),
        ofNat_eq_byte (b := b2) (by omega), ofNat_eq_byte (b := b3) (by omega)]
      rfl

theorem sound_of_first? {b : UInt8} {s : Begun} (h : first? b = some s) : s.Sound ∧ s.bytes = [b] := by
  rcases range_of_first? h with hb | hb | hb
  · rw [first?_two hb] at h
    cases h; exact ⟨sound_two hb, rfl⟩
  · rw [first?_three hb] at h
    cases h; exact ⟨sound_three hb, rfl⟩
  · rw [first?_four hb] at h
    cases h; exact ⟨sound_four hb, rfl⟩

def more (s : Begun) (b : UInt8) : Begun :=
  ⟨s.bytes ++ [b], s.missing - 1, 0x80, 0xBF, s.bits * 64 + b.toNat % 64⟩

theorem Finishes.cons {s : Begun} {b : UInt8} {rest : Bytes} (hm : 1 < s.missing) (hb : s.low ≤ b ∧ b ≤ s.high)
    (h : (s.more b).Finishes rest) : s.Finishes (b :: rest) := by
  refine ⟨?_, ?_, ?_⟩
  · have hl : rest.length = s.missing - 1 := h.length
    simp only [List.length_cons]
    omega
  · intro x hx
    cases hx; exact hb
  · intro x hx
    match rest, h with
    | b1 :: rest, h =>
      rcases List.mem_cons.1 hx with rfl | hx
      · exact h.head x rfl
      · exact h.tail x hx

theorem Finishes.uncons {s : Begun} {b : UInt8} {rest : Bytes} (h : s.Finishes (b :: rest)) (hr : rest ≠ []) :
    1 < s.missing ∧ (s.more b).Finishes rest := by
  have hl : rest.length + 1 = s.missing := h.length
  have hp := List.length_pos_iff.2 hr
  refine ⟨by omega, ?_, ?_, ?_⟩
  · show rest.length = s.missing - 1
    omega
  · intro x hx
    exact h.tail x (List.mem_of_mem_head? hx)
  · intro x hx
    exact h.tail x (List.mem_of_mem_tail hx)

namespace Sound
variable {s : Begun} {b : UInt8}

theorem more (h : s.Sound) (hm : 1 < s.missing) (hb : s.low ≤ b ∧ b ≤ s.high) : (s.more b).Sound where
  bytes_ne_nil := List.append_ne_nil_of_right_ne_nil _ (List.cons_ne_nil b [])
  missing_pos := Nat.sub_pos_of_lt hm
  bounds := (by decide : (0x80 : UInt8) ≤ 0x80 ∧ (0x80 : UInt8) ≤ 0xBF)
  encode rest hr := by
    have := h.encode (b :: rest) (hr.cons hm hb)
    simpa [codePoint, Begun.more] using this

/-- The last byte makes the character whose encoding was read. -/
theorem last (h : s.Sound) (hm : s.missing = 1) (hb : s.low ≤ b ∧ b ≤ s.high) :
    String.utf8EncodeChar (Char.ofNat (s.bits * 64 + b.toNat % 64)) = s.bytes ++ [b] :=
  h.encode [b] ⟨hm.symm, fun x hx => by cases hx; exact hb, fun x hx => by cases hx⟩

theorem exists_finishes (h : s.Sound) : ∃ rest, s.Finishes rest := by
  have hp := h.missing_pos
  refine ⟨s.low :: List.replicate (s.missing - 1) 0x80, ?_, ?_, ?_⟩
  · simp only [List.length_cons, List.length_replicate]
    omega
  · intro b hb
    cases hb; exact ⟨UInt8.le_refl _, h.bounds.2⟩
  · intro b hb
    rw [(List.mem_replicate.1 hb).2]
    exact (by decide : (0x80 : UInt8) ≤ 0x80 ∧ (0x80 : UInt8) ≤ 0xBF)

/-- What finishes a character holds no ASCII byte. -/
theorem le_of_mem_finishes {rest : Bytes} (h : s.Sound) (hr : s.Finishes rest) (hb : b ∈ rest) : 0x80 ≤ b := by
  match rest, hr with
  | b0 :: rest, hr =>
    rcases List.mem_cons.1 hb with rfl | hb
    · exact UInt8.le_trans h.bounds.1 (hr.head b rfl).1
    · exact (hr.tail b hb).1

end Sound

/-! ## Characters outside ASCII -/

theorem finishes_encodeChar_two {v : Nat} (h1 : 0x80 ≤ v) (h2 : v < 0x800) :
    ∃ b rest s, String.utf8EncodeChar (Char.ofNat v) = b :: rest ∧ 0x80 ≤ b ∧ first? b = some s ∧ s.Finishes rest := by
  have hb : 0xC2 ≤ UInt8.ofNat (0xC0 + v / 64) ∧ UInt8.ofNat (0xC0 + v / 64) ≤ 0xDF :=
    byteOfNat_between (by change 0xC2 ≤ _; omega) (by change _ ≤ 0xDF; omega)
  refine ⟨_, _, _, encodeChar_two h1 h2, UInt8.le_trans (by decide) hb.1, first?_two hb, rfl, ?_, ?_⟩
  · intro x hx
    cases hx; exact isTail_byteOfNat v
  · intro x hx
    cases hx

theorem finishes_encodeChar_three {v : Nat} (h1 : 0x800 ≤ v) (h2 : v < 0x10000) (h3 : v.isValidChar) :
    ∃ b rest s, String.utf8EncodeChar (Char.ofNat v) = b :: rest ∧ 0x80 ≤ b ∧ first? b = some s ∧ s.Finishes rest := by
  have hb : 0xE0 ≤ UInt8.ofNat (0xE0 + v / 4096) ∧ UInt8.ofNat (0xE0 + v / 4096) ≤ 0xEF :=
    byteOfNat_between (by change 0xE0 ≤ _; omega) (by change _ ≤ 0xEF; omega)
  refine ⟨_, _, _, encodeChar_three h1 h2 h3, UInt8.le_trans (by decide) hb.1, first?_three hb, rfl, ?_, ?_⟩
  · intro x hx
    cases hx
    refine (bounds_three hb).2 ⟨isTail_byteOfNat _, ?_⟩
    rw [toNat_byteOfNat (by omega), toNat_byteOfNat (by omega)]
    unfold Nat.isValidChar at h3
    omega
  · intro x hx
    rw [List.mem_singleton.1 hx]
    exact isTail_byteOfNat v

theorem finishes_encodeChar_four {v : Nat} (h1 : 0x10000 ≤ v) (h2 : v < 0x110000) :
    ∃ b rest s, String.utf8EncodeChar (Char.ofNat v) = b :: rest ∧ 0x80 ≤ b ∧ first? b = some s ∧ s.Finishes rest := by
  have hb : 0xF0 ≤ UInt8.ofNat (0xF0 + v / 262144) ∧ UInt8.ofNat (0xF0 + v / 262144) ≤ 0xF4 :=
    byteOfNat_between (by change 0xF0 ≤ _; omega) (by change _ ≤ 0xF4; omega)
  refine ⟨_, _, _, encodeChar_four h1 h2, UInt8.le_trans (by decide) hb.1, first?_four hb, rfl, ?_, ?_⟩
  · intro x hx
    cases hx
    refine (bounds_four hb).2 ⟨isTail_byteOfNat _, ?_⟩
    rw [toNat_byteOfNat (by omega), toNat_byteOfNat (by omega)]
    omega
  · intro x hx
    rcases List.mem_cons.1 hx with rfl | hx
    · exact isTail_byteOfNat _
    · rw [List.mem_singleton.1 hx]
      exact isTail_byteOfNat v

/-- The encoding of a character outside ASCII is a first byte and what finishes it. -/
theorem finishes_encodeChar {c : Char} (hc : 0x80 ≤ c.toNat) :
    ∃ b rest s, String.utf8EncodeChar c = b :: rest ∧ 0x80 ≤ b ∧ first? b = some s ∧ s.Finishes rest := by
  have hv : c.toNat.isValidChar := c.valid
  rw [← Char.ofNat_toNat c]
  by_cases h2 : c.toNat < 0x800
  · exact finishes_encodeChar_two hc h2
  by_cases h3 : c.toNat < 0x10000
  · exact finishes_encodeChar_three (by omega) h3 hv
  · exact finishes_encodeChar_four (by omega) (by unfold Nat.isValidChar at hv; omega)

end Begun

/-! ## The decoder -/

/-- The bytes of a piece. -/
def Piece.bytes : Piece → Bytes
  | .char c => String.utf8EncodeChar c
  | .invalid bs => bs

namespace Decoder

/-- `d` after the pieces `base`. -/
def onto (d : Decoder) (base : List Piece) : Decoder := ⟨d.done ++ base, d.begun⟩

theorem start_eq (done : List Piece) (b : UInt8) : start done b = (start [] b).onto done := by
  unfold start
  split
  · rfl
  · split <;> rfl

/-- Reading a byte does not look at what is settled. -/
theorem feed_onto (d : Decoder) (base : List Piece) (b : UInt8) : (d.onto base).feed b = (d.feed b).onto base := by
  obtain ⟨done, begun⟩ := d
  unfold feed onto
  cases begun with
  | none =>
    show start (done ++ base) b = _
    rw [start_eq, start_eq done]
    simp [onto]
  | some s =>
    dsimp only
    split
    · split <;> rfl
    · rw [start_eq, start_eq (_ :: done)]
      simp [onto]

theorem foldl_feed_onto (d : Decoder) (base : List Piece) (bs : Bytes) :
    bs.foldl feed (d.onto base) = (bs.foldl feed d).onto base := by
  induction bs generalizing d with
  | nil => rfl
  | cons b bs ih => rw [List.foldl_cons, List.foldl_cons, feed_onto, ih]

/-- The bytes that `d` has read. -/
def bytes (d : Decoder) : Bytes := d.done.reverse.flatMap Piece.bytes ++ (d.begun.map Begun.bytes).getD []

/-- What is begun is sound. -/
def Sound (d : Decoder) : Prop := ∀ s ∈ d.begun, s.Sound

theorem sound_start (done : List Piece) (b : UInt8) : (start done b).Sound := by
  unfold start
  split
  · intro s hs
    cases hs
  · split
    · next s h =>
      intro s' hs
      cases hs; exact (Begun.sound_of_first? h).1
    · intro s hs
      cases hs

theorem bytes_start (done : List Piece) (b : UInt8) : (start done b).bytes = done.reverse.flatMap Piece.bytes ++ [b] := by
  unfold start
  split
  · next h =>
    have h : b.toNat < 0x80 := h
    simp [bytes, Piece.bytes, encodeChar_one h]
  · split
    · next s h => simp [bytes, (Begun.sound_of_first? h).2]
    · simp [bytes, Piece.bytes]

theorem Sound.feed {d : Decoder} (h : d.Sound) (b : UInt8) : (d.feed b).Sound := by
  unfold Decoder.feed
  split
  · exact sound_start _ b
  · next s hs =>
    split
    · next hb =>
      have hp := (h s hs).missing_pos
      dsimp only
      split
      · intro s' hs'
        cases hs'
      · intro s' hs'
        cases hs'; exact (h s hs).more (by omega) hb
    · exact sound_start _ b

/-- No byte is lost. -/
theorem Sound.bytes_feed {d : Decoder} (h : d.Sound) (b : UInt8) : (d.feed b).bytes = d.bytes ++ [b] := by
  unfold Decoder.feed
  split
  · next hn => rw [bytes_start, bytes, hn]; simp
  · next s hs =>
    split
    · next hb =>
      dsimp only
      split
      · next hm =>
        have := (h s hs).last hm hb
        simp [bytes, Piece.bytes, hs, this]
      · simp [bytes, hs]
    · rw [bytes_start, bytes, hs]
      simp [Piece.bytes]

/-- What finishes the character begun settles it. -/
theorem foldl_feed_finishes {s : Begun} {rest : Bytes} (hp : 0 < s.missing) (h : s.Finishes rest) (done : List Piece) :
    rest.foldl feed ⟨done, some s⟩ = ⟨.char (Char.ofNat (s.codePoint rest)) :: done, none⟩ := by
  induction rest generalizing s with
  | nil =>
    have := h.length
    simp only [List.length_nil] at this
    omega
  | cons b rest ih =>
    have hb := h.head b rfl
    rw [List.foldl_cons]
    by_cases hr : rest = []
    · subst hr
      have hm : s.missing = 1 := h.length.symm
      simp only [feed, hb, and_self, ↓reduceIte, hm, List.foldl_nil, Begun.codePoint, List.foldl_cons]
    · obtain ⟨hm, hf⟩ := h.uncons hr
      have hfeed : feed ⟨done, some s⟩ b = ⟨done, some (s.more b)⟩ := by
        simp only [feed, hb, and_self, ↓reduceIte, if_neg (Nat.ne_of_gt hm)]
        rfl
      rw [hfeed, ih (Nat.sub_pos_of_lt hm) hf]
      rfl

/-- An encoded character is read as that character. -/
theorem foldl_feed_encodeChar (c : Char) (done : List Piece) :
    (String.utf8EncodeChar c).foldl feed ⟨done, none⟩ = ⟨.char c :: done, none⟩ := by
  by_cases hc : c.toNat < 0x80
  · have hn := toNat_byteOfNat (show c.toNat < 256 by omega)
    have hb : UInt8.ofNat c.toNat < 0x80 := by
      show (UInt8.ofNat c.toNat).toNat < 0x80
      rwa [hn]
    rw [← Char.ofNat_toNat c, encodeChar_one hc]
    simp only [List.foldl_cons, List.foldl_nil, feed, start, hb, ↓reduceIte, hn]
  · obtain ⟨b, rest, s, he, hb, hs, hf⟩ := Begun.finishes_encodeChar (Nat.le_of_not_lt hc)
    obtain ⟨sound, hbytes⟩ := Begun.sound_of_first? hs
    have hstart : feed ⟨done, none⟩ b = ⟨done, some s⟩ := by
      simp only [feed, start, hs, if_neg (UInt8.not_lt.2 hb)]
    have hchar : Char.ofNat (s.codePoint rest) = c := by
      apply encodeChar_injective
      rw [sound.encode rest hf, hbytes, he]
      rfl
    rw [he, List.foldl_cons, hstart, foldl_feed_finishes sound.missing_pos hf, hchar]

end Decoder

theorem read_concat (bs : Bytes) (b : UInt8) : read (bs ++ [b]) = (read bs).feed b := by
  rw [read, List.foldl_append]
  rfl

theorem read_append (bs bs' : Bytes) : read (bs ++ bs') = bs'.foldl Decoder.feed (read bs) := by
  rw [read, List.foldl_append]
  rfl

theorem sound_read (bs : Bytes) : (read bs).Sound := by
  induction bs using List.reverseRecOn with
  | nil => intro s hs; cases hs
  | append_singleton bs b ih => rw [read_concat]; exact ih.feed b

theorem bytes_read (bs : Bytes) : (read bs).bytes = bs := by
  induction bs using List.reverseRecOn with
  | nil => rfl
  | append_singleton bs b ih => rw [read_concat, (sound_read bs).bytes_feed, ih]

end LogRelay.Utf8
