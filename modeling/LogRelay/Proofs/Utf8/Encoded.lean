import LogRelay.Proofs.Utf8.Pieces
import LogRelay.Text.Terminated
import Mathlib.Data.List.TakeWhile

/-!
# Reading encoded text

Encoded characters are read back as they are, whole or cut off anywhere: a cut leaves the longest run of whole
characters that it leaves room for (`settled_take_encode`). A byte below 0x80 occurs in an encoding only as the character
of that code point.
-/

namespace LogRelay.Bytes

theorem untilNul_eq_self {bs : Bytes} (h : 0 ∉ bs) : untilNul bs = bs := by
  rw [untilNul, List.takeWhile_eq_self_iff]
  intro b hb
  simpa using fun h0 : b = 0 => h (h0 ▸ hb)

theorem untilNul_untilNul (bs : Bytes) : untilNul (untilNul bs) = untilNul bs := List.takeWhile_idem

theorem untilNul_mono {a b : Bytes} (h : a <+: b) : untilNul a <+: untilNul b := by
  obtain ⟨rest, rfl⟩ := h
  rw [untilNul, untilNul, List.takeWhile_append]
  split
  · next hl =>
    have ha := (List.takeWhile_prefix _).eq_of_length hl
    exact ⟨_, congrArg (· ++ _) ha⟩
  · exact List.prefix_refl _

end LogRelay.Bytes

namespace LogRelay.Utf8

@[simp] theorem encode_nil : encode [] = [] := rfl

@[simp] theorem encode_cons (c : Char) (cs : List Char) : encode (c :: cs) = String.utf8EncodeChar c ++ encode cs := rfl

theorem encode_append (cs ds : List Char) : encode (cs ++ ds) = encode cs ++ encode ds := by
  simp [encode]

theorem settled_encode (cs : List Char) : settled (encode cs) = cs.map .char := by
  induction cs with
  | nil => rfl
  | cons c cs ih => rw [encode_cons, settled_append_of_settled (read_encodeChar c), ih, List.map_cons]

theorem pieces_encode (cs : List Char) : pieces (encode cs) = cs.map .char := by
  induction cs with
  | nil => rfl
  | cons c cs ih => rw [encode_cons, pieces_append_of_settled (read_encodeChar c), ih, List.map_cons]

theorem map_shown_char (cs : List Char) : (cs.map Piece.char).map Piece.shown = cs := by
  rw [List.map_map]
  exact List.map_id cs

theorem decode_encode (cs : List Char) : decode (encode cs) = String.ofList cs := by
  rw [decode, pieces_encode, map_shown_char]

theorem decode?_ofText (s : String) : decode? (ofText s) = some s := by
  have h (cs : List Char) : (cs.map Piece.char).mapM Piece.char? = some cs := by
    induction cs with
    | nil => rfl
    | cons c cs ih => simp [Piece.char?, ih]
  rw [decode?, ofText, pieces_encode, h]
  simp

theorem Cuts.eq_encode {bs : Bytes} {cs : List Char} (h : Cuts bs (cs.map .char)) : bs = encode cs := by
  induction cs generalizing bs with
  | nil =>
    cases h
    rfl
  | cons c cs ih =>
    cases h with
    | char h => rw [encode_cons, ← ih h]

theorem eq_map_char_of_mapM {ps : List Piece} {cs : List Char} (h : ps.mapM Piece.char? = some cs) :
    ps = cs.map .char := by
  induction ps generalizing cs with
  | nil =>
    cases h
    rfl
  | cons p ps ih =>
    rw [List.mapM_cons] at h
    obtain ⟨c, hc, h⟩ := Option.bind_eq_some_iff.1 h
    obtain ⟨cs, hcs, he⟩ := Option.bind_eq_some_iff.1 h
    cases he
    cases p with
    | char d =>
      cases hc
      rw [List.map_cons, ← ih hcs]
    | invalid bad => cases hc

/-- The bytes that are text are those that encode it. -/
theorem decode?_eq_some_iff {bs : Bytes} {s : String} : decode? bs = some s ↔ bs = ofText s := by
  constructor
  · intro h
    obtain ⟨cs, hcs, rfl⟩ := Option.map_eq_some_iff.1 h
    have hcuts : Cuts bs (cs.map .char) := cuts_iff.2 (eq_map_char_of_mapM hcs).symm
    rw [ofText, String.toList_ofList, hcuts.eq_encode]
  · rintro rfl
    exact decode?_ofText s

/-! ## Sizes -/

theorem length_ofText (s : String) : (ofText s).length = s.utf8ByteSize := by
  have hs : s.toByteArray = (encode s.toList).toByteArray := by
    rw [← String.ofList_toList (s := s), String.toByteArray_ofList, String.ofList_toList]
    rfl
  rw [← String.size_toByteArray, hs, List.size_toByteArray, ofText]

/-- The bytes of a piece that is no character. -/
def Piece.invalid? : Piece → Option Bytes
  | .char _ => none
  | .invalid bad => some bad

theorem length_encode_replacement : (String.utf8EncodeChar replacement).length = 3 := by decide

section
variable {bs : Bytes} {ps : List Piece}

/-- Each invalid piece gives way to the three bytes of a replacement character. -/
theorem Cuts.length_encode (h : Cuts bs ps) :
    (encode (ps.map Piece.shown)).length + (ps.filterMap Piece.invalid?).flatten.length =
      bs.length + 3 * (ps.filterMap Piece.invalid?).length := by
  induction h with
  | nil => rfl
  | @char c rest ps h ih =>
    rw [List.map_cons, Piece.shown, encode_cons, List.filterMap_cons_none rfl, List.length_append, List.length_append]
    omega
  | @invalid bad rest ps hbad h ih =>
    have hb : Piece.invalid? (.invalid bad) = some bad := rfl
    rw [List.map_cons, Piece.shown, encode_cons, List.filterMap_cons_some hb, List.flatten_cons, List.length_append,
      List.length_append, List.length_append, List.length_cons, length_encode_replacement]
    omega

/-- No text is longer than three times its bytes, which is when each byte is an invalid piece. -/
theorem Cuts.length_encode_le (h : Cuts bs ps) : (encode (ps.map Piece.shown)).length ≤ 3 * bs.length := by
  induction h with
  | nil => exact Nat.zero_le _
  | @char c rest ps h ih =>
    rw [List.map_cons, Piece.shown, encode_cons, List.length_append, List.length_append]
    omega
  | @invalid bad rest ps hbad h ih =>
    have hpos := List.length_pos_iff.2 hbad.ne_nil
    rw [List.map_cons, Piece.shown, encode_cons, List.length_append, List.length_append, length_encode_replacement]
    omega

/-- No part at the front of a text has an invalid piece settled. -/
theorem invalid_settled_of_front {cs : List Char} (h : bs <+: encode cs) :
    (settled bs).filterMap Piece.invalid? = [] := by
  have hp := settled_mono h
  rw [settled_encode] at hp
  refine List.filterMap_eq_nil_iff.2 fun p hm => ?_
  obtain ⟨c, -, rfl⟩ := List.mem_map.1 (hp.subset hm)
  rfl

end

/-! ## Bytes below 0x80 -/

/-- Characters below 0x80 are their own bytes. -/
theorem encode_eq_map {cs : List Char} (h : ∀ c ∈ cs, c.toNat < 0x80) : encode cs = cs.map Char.toUInt8 := by
  induction cs with
  | nil => rfl
  | cons c cs ih =>
    obtain ⟨hc, hcs⟩ := List.forall_mem_cons.1 h
    have hone := encodeChar_one hc
    rw [Char.ofNat_toNat] at hone
    rw [encode_cons, hone, ih hcs]
    rfl

theorem mem_encodeChar {b : UInt8} (hb : b < 0x80) {c : Char} :
    b ∈ String.utf8EncodeChar c ↔ c = Char.ofNat b.toNat := by
  have hb' : b.toNat < 0x80 := hb
  constructor
  · intro h
    by_cases hc : c.toNat < 0x80
    · rw [← Char.ofNat_toNat c, encodeChar_one hc, List.mem_singleton] at h
      rw [h, toNat_byteOfNat (by omega), Char.ofNat_toNat]
    · obtain ⟨b0, rest, s, he, h0, hs, hf⟩ := Begun.finishes_encodeChar (Nat.le_of_not_lt hc)
      have hle : 0x80 ≤ b := by
        rw [he] at h
        rcases List.mem_cons.1 h with rfl | h
        · exact h0
        · exact (Begun.sound_of_first? hs).1.le_of_mem_finishes hf h
      exact absurd hb (UInt8.not_lt.2 hle)
  · rintro rfl
    rw [encodeChar_one hb', UInt8.ofNat_toNat]
    exact List.mem_singleton_self b

theorem mem_encode {b : UInt8} (hb : b < 0x80) {cs : List Char} : b ∈ encode cs ↔ Char.ofNat b.toNat ∈ cs := by
  simp only [encode, List.mem_flatMap, mem_encodeChar hb]
  exact ⟨fun ⟨c, hc, h⟩ => h ▸ hc, fun h => ⟨_, h, rfl⟩⟩

theorem count_encodeChar {b : UInt8} (hb : b < 0x80) (c : Char) :
    (String.utf8EncodeChar c).count b = if c = Char.ofNat b.toNat then 1 else 0 := by
  have hb' : b.toNat < 0x80 := hb
  split
  · next hc => rw [hc, encodeChar_one hb', UInt8.ofNat_toNat, List.count_singleton_self]
  · next hc => exact List.count_eq_zero.2 fun h => hc ((mem_encodeChar hb).1 h)

theorem count_encode {b : UInt8} (hb : b < 0x80) (cs : List Char) :
    (encode cs).count b = cs.count (Char.ofNat b.toNat) := by
  induction cs with
  | nil => rfl
  | cons c cs ih =>
    rw [encode_cons, List.count_append, ih, count_encodeChar hb, List.count_cons, Nat.add_comm]
    simp only [beq_iff_eq]

theorem Cuts.mem_of_char {bs : Bytes} {ps : List Piece} {c : Char} {b : UInt8} (h : Cuts bs ps) (hc : .char c ∈ ps)
    (hb : b ∈ String.utf8EncodeChar c) : b ∈ bs := by
  induction h with
  | nil => cases hc
  | char h ih =>
    rcases List.mem_cons.1 hc with he | hc
    · cases he
      exact List.mem_append_left _ hb
    · exact List.mem_append_right _ (ih hc)
  | invalid hbad h ih =>
    rcases List.mem_cons.1 hc with he | hc
    · cases he
    · exact List.mem_append_right _ (ih hc)

/-- Decoding makes no character below 0x80 out of other bytes. -/
theorem mem_of_mem_decode {b : UInt8} (hb : b < 0x80) {bs : Bytes} (h : Char.ofNat b.toNat ∈ (decode bs).toList) :
    b ∈ bs := by
  rw [decode, String.toList_ofList] at h
  obtain ⟨p, hp, hs⟩ := List.mem_map.1 h
  cases p with
  | char c => exact (cuts_iff.2 rfl).mem_of_char hp ((mem_encodeChar hb).2 hs)
  | invalid bad =>
    have hb' : b.toNat < 0x80 := hb
    have hn : replacement.toNat = b.toNat := by
      rw [show replacement = _ from hs, toNat_charOfNat (Or.inl (by omega))]
    have hr : replacement.toNat = 0xFFFD := by decide
    omega

theorem mem_of_mem_decodeCut {b : UInt8} (hb : b < 0x80) {bs : Bytes}
    (h : Char.ofNat b.toNat ∈ (decodeCut bs).toList) : b ∈ bs := by
  obtain ⟨whole, tail, rfl, -, -, he⟩ := exists_decodeCut_eq bs
  rw [he] at h
  exact List.mem_append_left _ (mem_of_mem_decode hb h)

/-! ## Cut text -/

/-- `p` is the longest part at the front of `cs` whose encoding has at most `n` bytes. -/
structure LongestWithin (n : Nat) (cs p : List Char) : Prop where
  front : p <+: cs
  fits : (encode p).length ≤ n
  longest : ∀ q, q <+: cs → (encode q).length ≤ n → q <+: p

theorem LongestWithin.eq_of_fits {n : Nat} {cs p : List Char} (h : LongestWithin n cs p) (hn : (encode cs).length ≤ n) :
    p = cs :=
  h.front.eq_of_length_le (h.longest cs List.prefix_rfl hn).length_le

theorem LongestWithin.cons {n : Nat} {c : Char} {cs p : List Char} (hn : (String.utf8EncodeChar c).length ≤ n)
    (h : LongestWithin (n - (String.utf8EncodeChar c).length) cs p) : LongestWithin n (c :: cs) (c :: p) where
  front := List.cons_prefix_cons.2 ⟨rfl, h.front⟩
  fits := by
    have := h.fits
    rw [encode_cons, List.length_append]
    omega
  longest q hq hfit := by
    match q, hq with
    | [], _ => exact List.nil_prefix
    | d :: q, hq =>
      obtain ⟨rfl, hqs⟩ := List.cons_prefix_cons.1 hq
      rw [encode_cons, List.length_append] at hfit
      exact List.cons_prefix_cons.2 ⟨rfl, h.longest q hqs (by omega)⟩

theorem LongestWithin.nil_of_lt {n : Nat} {c : Char} {cs : List Char} (hn : n < (String.utf8EncodeChar c).length) :
    LongestWithin n (c :: cs) [] where
  front := List.nil_prefix
  fits := Nat.zero_le n
  longest q hq hfit := by
    match q, hq with
    | [], _ => exact List.nil_prefix
    | d :: q, hq =>
      obtain ⟨rfl, -⟩ := List.cons_prefix_cons.1 hq
      rw [encode_cons, List.length_append] at hfit
      omega

theorem LongestWithin.eq {n : Nat} {cs p q : List Char} (hp : LongestWithin n cs p) (hq : LongestWithin n cs q) : p = q :=
  (hq.longest p hp.front hp.fits).eq_of_length_le (hp.longest q hq.front hq.fits).length_le

/-- What fits is the longest part where the next character is too much. -/
theorem longestWithin_append {n : Nat} {p : List Char} {c : Char} (cs : List Char) (hp : (encode p).length ≤ n)
    (hc : n < (encode p).length + (String.utf8EncodeChar c).length) : LongestWithin n (p ++ c :: cs) p := by
  induction p generalizing n with
  | nil => exact .nil_of_lt (by simpa using hc)
  | cons d p ih =>
    rw [encode_cons, List.length_append] at hp hc
    exact (ih (by omega) (by omega)).cons (by omega)

theorem length_encode_replicate (n : Nat) (c : Char) :
    (encode (List.replicate n c)).length = n * (String.utf8EncodeChar c).length := by
  induction n with
  | zero => simp
  | succ n ih => rw [List.replicate_succ, encode_cons, List.length_append, ih, Nat.succ_mul, Nat.add_comm]

theorem settled_take_encodeChar {n : Nat} {c : Char} (h : n < (String.utf8EncodeChar c).length) :
    settled ((String.utf8EncodeChar c).take n) = [] := by
  by_cases h0 : n = 0
  · subst h0; rfl
  · have hi : Incomplete ((String.utf8EncodeChar c).take n) := by
      refine ⟨?_, c, (String.utf8EncodeChar c).drop n, ?_, (List.take_append_drop _ _).symm⟩ <;>
        rw [← List.length_pos_iff]
      · rw [List.length_take]
        omega
      · rw [List.length_drop]
        omega
    obtain ⟨s, -, hr⟩ := hi.read_eq
    rw [settled, hr]
    rfl

/-- Of a text cut after `n` bytes the longest run of whole characters is settled. -/
theorem settled_take_encode (n : Nat) (cs : List Char) :
    ∃ p, settled ((encode cs).take n) = p.map .char ∧ LongestWithin n cs p := by
  induction cs generalizing n with
  | nil =>
    refine ⟨[], ?_, List.nil_prefix, Nat.zero_le n, fun q hq _ => hq⟩
    rw [encode_nil, List.take_nil]
    rfl
  | cons c cs ih =>
    rw [encode_cons, List.take_append]
    by_cases hn : (String.utf8EncodeChar c).length ≤ n
    · obtain ⟨p, hp, hl⟩ := ih (n - (String.utf8EncodeChar c).length)
      refine ⟨c :: p, ?_, hl.cons hn⟩
      rw [List.take_of_length_le hn, settled_append_of_settled (read_encodeChar c), hp, List.map_cons]
    · refine ⟨[], ?_, .nil_of_lt (by omega)⟩
      rw [Nat.sub_eq_zero_of_le (by omega), List.take_zero, List.append_nil, settled_take_encodeChar (by omega)]
      rfl

/-- Text cut after `n` bytes is read as the longest run of whole characters in them. -/
theorem longestWithin_decodeCut (n : Nat) (cs : List Char) :
    LongestWithin n cs (decodeCut ((encode cs).take n)).toList := by
  obtain ⟨p, hp, hl⟩ := settled_take_encode n cs
  rwa [decodeCut, hp, map_shown_char, String.toList_ofList]

end LogRelay.Utf8
