import LogRelay.Proofs.Utf8.Decoder
import Mathlib.Data.Nat.Find

/-!
# Maximal invalid pieces

`Cuts` says how bytes are cut into characters and maximal invalid pieces, with no decoder in sight, and `pieces` is the
one way to do it (`cuts_iff`). The settled pieces are all of them, less an unfinished character at the end
(`reads_decodeCut`), and reading on only adds to them (`settled_mono`).
-/

namespace LogRelay.Utf8

/-- Bytes that begin a character and are not all of it. -/
def Incomplete (bs : Bytes) : Prop := bs ≠ [] ∧ ∃ c rest, rest ≠ [] ∧ String.utf8EncodeChar c = bs ++ rest

/-- `bad` is what counts as one invalid piece at the front of `bad ++ rest`: no character stands there, and `bad` is
the longest beginning of one, or a single byte where there is none. -/
structure MaximalInvalid (bad rest : Bytes) : Prop where
  noChar : ∀ c, ¬ String.utf8EncodeChar c <+: bad ++ rest
  piece : Incomplete bad ∨ bad.length = 1
  longest : ∀ longer, longer <+: bad ++ rest → bad.length < longer.length → ¬ Incomplete longer

/-- The pieces of some bytes from the left: characters, and maximal invalid pieces between them. -/
inductive Cuts : Bytes → List Piece → Prop where
  | nil : Cuts [] []
  | char {c : Char} {rest : Bytes} {ps : List Piece} (h : Cuts rest ps) :
      Cuts (String.utf8EncodeChar c ++ rest) (.char c :: ps)
  | invalid {bad rest : Bytes} {ps : List Piece} (hbad : MaximalInvalid bad rest) (h : Cuts rest ps) :
      Cuts (bad ++ rest) (.invalid bad :: ps)

namespace Incomplete
variable {bs : Bytes}

theorem length_le (h : Incomplete bs) : bs.length ≤ 3 := by
  obtain ⟨-, c, rest, hr, he⟩ := h
  have hl := congrArg List.length he
  rw [String.length_utf8EncodeChar, List.length_append] at hl
  have := c.utf8Size_le_four
  have := List.length_pos_iff.2 hr
  omega

/-- Where nothing is begun, the beginning of a character is read as that and settles nothing. -/
theorem read_eq (h : Incomplete bs) : ∃ s, s.bytes = bs ∧ read bs = ⟨[], some s⟩ := by
  obtain ⟨hne, c, rest, hr, he⟩ := h
  have hd : (rest.foldl Decoder.feed ⟨[], (read bs).begun⟩).onto (read bs).done = ⟨[.char c], none⟩ := by
    rw [← Decoder.foldl_feed_onto]
    show rest.foldl Decoder.feed (read bs) = _
    rw [← read_append, ← he]
    exact Decoder.foldl_feed_encodeChar c []
  have hdone := congrArg Decoder.done hd
  have hbytes := bytes_read bs
  unfold Decoder.bytes at hbytes
  rcases List.append_eq_singleton_iff.1 hdone with ⟨-, hc⟩ | ⟨-, hn⟩
  · -- the character cannot be settled before all its bytes are read
    rw [hc] at hbytes
    have hl := congrArg List.length (he.trans (congrArg (· ++ rest) hbytes.symm))
    have := List.length_pos_iff.2 hr
    simp only [List.reverse_singleton, List.flatMap_singleton, Piece.bytes, List.length_append] at hl
    omega
  · rw [hn] at hbytes
    cases hs : (read bs).begun with
    | none =>
      rw [hs] at hbytes
      exact absurd hbytes.symm hne
    | some s =>
      rw [hs] at hbytes
      refine ⟨s, hbytes, ?_⟩
      rw [← hn, ← hs]

end Incomplete

theorem Begun.Sound.incomplete {s : Begun} (h : s.Sound) : Incomplete s.bytes := by
  obtain ⟨rest, hr⟩ := h.exists_finishes
  refine ⟨h.bytes_ne_nil, _, rest, ?_, h.encode rest hr⟩
  have := h.missing_pos
  rw [← hr.length] at this
  exact List.length_pos_iff.1 this

/-! ## Reading piece by piece -/

theorem read_append_of_settled {bs : Bytes} {done : List Piece} (h : read bs = ⟨done, none⟩) (rest : Bytes) :
    read (bs ++ rest) = (read rest).onto done := by
  rw [read_append, h]
  exact Decoder.foldl_feed_onto ⟨[], none⟩ done rest

theorem settled_append_of_settled {bs : Bytes} {p : Piece} (h : read bs = ⟨[p], none⟩) (rest : Bytes) :
    settled (bs ++ rest) = p :: settled rest := by
  rw [settled, read_append_of_settled h]
  simp [Decoder.onto, settled]

theorem pieces_append_of_settled {bs : Bytes} {p : Piece} (h : read bs = ⟨[p], none⟩) (rest : Bytes) :
    pieces (bs ++ rest) = p :: pieces rest := by
  have hb : (read (bs ++ rest)).begun = (read rest).begun := by
    rw [read_append_of_settled h]
    rfl
  unfold pieces
  rw [hb, settled_append_of_settled h]
  split <;> rfl

theorem read_encodeChar (c : Char) : read (String.utf8EncodeChar c) = ⟨[.char c], none⟩ :=
  Decoder.foldl_feed_encodeChar c []

/-- A byte that the character begun cannot use settles it as invalid. -/
theorem read_append_cons_of_refused {bs : Bytes} {s : Begun} {b : UInt8} (h : read bs = ⟨[], some s⟩)
    (hb : ¬ (s.low ≤ b ∧ b ≤ s.high)) (rest : Bytes) :
    read (bs ++ b :: rest) = (read (b :: rest)).onto [.invalid s.bytes] := by
  rw [read_append, h, List.foldl_cons]
  simp only [Decoder.feed, hb, ↓reduceIte]
  rw [Decoder.start_eq, Decoder.foldl_feed_onto]
  rfl

theorem read_singleton_of_invalid {b : UInt8} (h : ∀ c, ¬ String.utf8EncodeChar c <+: [b]) (hb : ¬ Incomplete [b]) :
    read [b] = ⟨[.invalid [b]], none⟩ := by
  show Decoder.start [] b = _
  unfold Decoder.start
  split
  · next h0 =>
    have h0 : b.toNat < 0x80 := h0
    have he : String.utf8EncodeChar (Char.ofNat b.toNat) = [b] := by rw [encodeChar_one h0, UInt8.ofNat_toNat]
    exact absurd (he ▸ List.prefix_refl [b]) (h (Char.ofNat b.toNat))
  · split
    · next s hs =>
      obtain ⟨sound, hbytes⟩ := Begun.sound_of_first? hs
      exact absurd (hbytes ▸ sound.incomplete) hb
    · rfl

/-- A byte in the bounds of a character begun makes it longer or makes it whole. -/
theorem Begun.Sound.more_or_char {s : Begun} {b : UInt8} (h : s.Sound) (hb : s.low ≤ b ∧ b ≤ s.high) :
    Incomplete (s.bytes ++ [b]) ∨ ∃ c, String.utf8EncodeChar c = s.bytes ++ [b] := by
  have hp := h.missing_pos
  by_cases hm : s.missing = 1
  · exact .inr ⟨_, h.last hm hb⟩
  · exact .inl (h.more (by omega) hb).incomplete

theorem pieces_incomplete {bs : Bytes} (h : Incomplete bs) : pieces bs = [.invalid bs] := by
  obtain ⟨s, hs, hr⟩ := h.read_eq
  simp [pieces, settled, hr, hs]

theorem MaximalInvalid.pieces_append {bad rest : Bytes} (h : MaximalInvalid bad rest) :
    pieces (bad ++ rest) = .invalid bad :: pieces rest := by
  by_cases hi : Incomplete bad
  · cases rest with
    | nil =>
      rw [List.append_nil, pieces_incomplete hi]
      rfl
    | cons b rest =>
      obtain ⟨s, hs, hr⟩ := hi.read_eq
      have hsound : s.Sound := by
        have := sound_read bad
        rw [hr] at this
        exact this s rfl
      have hpre : bad ++ [b] <+: bad ++ b :: rest := ⟨rest, by simp⟩
      have hb : ¬ (s.low ≤ b ∧ b ≤ s.high) := by
        intro hb
        rcases hsound.more_or_char hb with hm | ⟨c, hc⟩ <;> rw [hs] at *
        · exact h.longest _ hpre (by simp) hm
        · exact h.noChar c (hc ▸ hpre)
      have hread := read_append_cons_of_refused hr hb rest
      rw [hs] at hread
      unfold pieces settled
      rw [hread]
      simp only [Decoder.onto, List.reverse_append, List.reverse_singleton, List.singleton_append]
      split <;> rfl
  · obtain ⟨b, rfl⟩ := List.length_eq_one_iff.1 (h.piece.resolve_left hi)
    refine pieces_append_of_settled (read_singleton_of_invalid (fun c hc => ?_) hi) rest
    exact h.noChar c (hc.trans (List.prefix_append _ _))

/-- There is only one way to cut. -/
theorem Cuts.eq_pieces {bs : Bytes} {ps : List Piece} (h : Cuts bs ps) : ps = pieces bs := by
  induction h with
  | nil => rfl
  | char h ih => rw [pieces_append_of_settled (read_encodeChar _), ih]
  | invalid hbad h ih => rw [hbad.pieces_append, ih]

/-- A piece stands at the front of any bytes. -/
theorem exists_piece (bs : Bytes) (hne : bs ≠ []) :
    (∃ c, String.utf8EncodeChar c <+: bs) ∨ ∃ bad rest, bs = bad ++ rest ∧ MaximalInvalid bad rest := by
  classical
  by_cases hc : ∃ c, String.utf8EncodeChar c <+: bs
  · exact .inl hc
  refine .inr ?_
  have hno : ∀ c, ¬ String.utf8EncodeChar c <+: bs := fun c h => hc ⟨c, h⟩
  by_cases hi : ∃ n, n ≤ 3 ∧ Incomplete (bs.take n)
  · obtain ⟨n, hn, hin⟩ := hi
    -- the longest beginning of a character: none is longer than three bytes
    let m := Nat.findGreatest (fun n => Incomplete (bs.take n)) 3
    have hm : Incomplete (bs.take m) := Nat.findGreatest_spec (P := fun n => Incomplete (bs.take n)) hn hin
    refine ⟨bs.take m, bs.drop m, (List.take_append_drop m bs).symm, ?_, .inl hm, ?_⟩ <;>
      rw [List.take_append_drop]
    · exact hno
    · intro longer hl hlt hinc
      rw [List.prefix_iff_eq_take] at hl
      rw [List.length_take] at hlt
      have hle : longer.length ≤ bs.length := by
        have := congrArg List.length hl
        rw [List.length_take] at this
        omega
      have hlt : m < longer.length := by omega
      rw [hl] at hinc
      exact Nat.findGreatest_is_greatest (P := fun n => Incomplete (bs.take n)) hlt (hl ▸ hinc.length_le) hinc
  · obtain ⟨b, rest, rfl⟩ := List.exists_cons_of_ne_nil hne
    refine ⟨[b], rest, rfl, hno, .inr rfl, fun longer hl _ hinc => hi ⟨longer.length, hinc.length_le, ?_⟩⟩
    have := List.prefix_iff_eq_take.1 hl
    simp only [List.singleton_append] at this
    rwa [← this]

theorem MaximalInvalid.ne_nil {bad rest : Bytes} (h : MaximalInvalid bad rest) : bad ≠ [] := by
  rcases h.piece with hi | hl
  · exact hi.1
  · intro hn
    rw [hn] at hl
    cases hl

theorem exists_cuts (bs : Bytes) : ∃ ps, Cuts bs ps := by
  induction h : bs.length using Nat.strongRecOn generalizing bs with
  | _ n ih =>
    by_cases hne : bs = []
    · exact ⟨[], hne ▸ .nil⟩
    rcases exists_piece bs hne with ⟨c, rest, rfl⟩ | ⟨bad, rest, rfl, hbad⟩
    · have hpos := List.length_pos_iff.2 (String.utf8EncodeChar_ne_nil (c := c))
      obtain ⟨ps, hps⟩ := ih rest.length (by rw [← h, List.length_append]; omega) rest rfl
      exact ⟨_, .char hps⟩
    · have hpos := List.length_pos_iff.2 hbad.ne_nil
      obtain ⟨ps, hps⟩ := ih rest.length (by rw [← h, List.length_append]; omega) rest rfl
      exact ⟨_, .invalid hbad hps⟩

/-- The decoder cuts as `Cuts` says. -/
theorem cuts_iff {bs : Bytes} {ps : List Piece} : Cuts bs ps ↔ ps = pieces bs := by
  refine ⟨Cuts.eq_pieces, ?_⟩
  rintro rfl
  obtain ⟨ps, hps⟩ := exists_cuts bs
  rwa [← hps.eq_pieces]

/-! ## Front and back -/

/-- An invalid piece is one whatever bytes are taken off behind it. -/
theorem MaximalInvalid.front {bad rest back : Bytes} (h : MaximalInvalid bad (rest ++ back)) :
    MaximalInvalid bad rest := by
  have hpre : bad ++ rest <+: bad ++ (rest ++ back) := ⟨back, List.append_assoc ..⟩
  exact ⟨fun c hc => h.noChar c (hc.trans hpre), h.piece, fun longer hl => h.longest longer (hl.trans hpre)⟩

/-- Bytes come apart wherever their pieces do. -/
theorem Cuts.split {bs : Bytes} {ps qs : List Piece} (h : Cuts bs (ps ++ qs)) :
    ∃ front back, bs = front ++ back ∧ Cuts front ps ∧ Cuts back qs := by
  induction ps generalizing bs with
  | nil => exact ⟨[], bs, rfl, .nil, h⟩
  | cons p ps ih =>
    cases h with
    | char h =>
      obtain ⟨front, back, rfl, hf, hb⟩ := ih h
      exact ⟨_, back, (List.append_assoc ..).symm, .char hf, hb⟩
    | invalid hbad h =>
      obtain ⟨front, back, rfl, hf, hb⟩ := ih h
      exact ⟨_, back, (List.append_assoc ..).symm, .invalid hbad.front hf, hb⟩

theorem Cuts.invalid_singleton {bs bad : Bytes} (h : Cuts bs [.invalid bad]) : bs = bad := by
  cases h with
  | invalid hbad h =>
    cases h
    exact List.append_nil bad

theorem Cuts.exists_maximalInvalid {bs bad : Bytes} {ps : List Piece} (h : Cuts bs ps) (hm : .invalid bad ∈ ps) :
    ∃ rest, MaximalInvalid bad rest := by
  induction h with
  | nil => cases hm
  | char h ih =>
    rcases List.mem_cons.1 hm with he | hm
    · cases he
    · exact ih hm
  | invalid hbad h ih =>
    rcases List.mem_cons.1 hm with he | hm
    · cases he
      exact ⟨_, hbad⟩
    · exact ih hm

/-! ## What is left at the end -/

theorem incomplete_of_begun {bs : Bytes} {s : Begun} (h : (read bs).begun = some s) : Incomplete s.bytes :=
  (sound_read bs s h).incomplete

theorem begun_of_start {done : List Piece} {b : UInt8} {s : Begun} (h : (Decoder.start done b).begun = some s) :
    s.bytes = [b] ∧ (Decoder.start done b).done = done := by
  unfold Decoder.start at h ⊢
  split at h
  · cases h
  · next hb =>
    rw [if_neg hb]
    cases hf : Begun.first? b with
    | none => rw [hf] at h; cases h
    | some s' =>
      rw [hf] at h
      cases h
      exact ⟨(Begun.sound_of_first? hf).2, rfl⟩

/-- The character begun is at the end, and the pieces before it are those settled. -/
theorem exists_whole {bs : Bytes} {s : Begun} (h : (read bs).begun = some s) :
    ∃ whole, bs = whole ++ s.bytes ∧ pieces whole = settled bs := by
  induction bs using List.reverseRecOn generalizing s with
  | nil => cases h
  | append_singleton bs b ih =>
    rw [read_concat] at h
    unfold settled
    rw [read_concat]
    unfold Decoder.feed at h ⊢
    cases hs : (read bs).begun with
    | none =>
      rw [hs] at h
      obtain ⟨hb, hd⟩ := begun_of_start h
      refine ⟨bs, by rw [hb], ?_⟩
      simp only [hd, pieces, hs, settled]
    | some s0 =>
      rw [hs] at h
      dsimp only at h ⊢
      split at h
      · next hb =>
        rw [if_pos hb]
        split at h
        · cases h
        · next hm =>
          cases h
          obtain ⟨whole, hw, hp⟩ := ih hs
          rw [if_neg hm]
          refine ⟨whole, ?_, hp⟩
          show bs ++ [b] = whole ++ (s0.bytes ++ [b])
          rw [← List.append_assoc, ← hw]
      · next hb =>
        rw [if_neg hb]
        obtain ⟨hb, hd⟩ := begun_of_start h
        refine ⟨bs, by rw [hb], ?_⟩
        simp only [hd, pieces, hs, settled, List.reverse_cons]

theorem invalid_of_start {done ps : List Piece} {b : UInt8} {p : Bytes}
    (h : Decoder.start done b = ⟨.invalid p :: ps, none⟩) : p = [b] ∧ read [b] = ⟨[.invalid [b]], none⟩ := by
  show p = [b] ∧ Decoder.start [] b = _
  unfold Decoder.start at h ⊢
  split at h
  · cases h
  · next hb =>
    rw [if_neg hb]
    cases hf : Begun.first? b with
    | some s => rw [hf] at h; cases h
    | none =>
      rw [hf] at h
      cases h
      exact ⟨rfl, rfl⟩

/-- An invalid piece that is settled at the very end is no beginning of a character. -/
theorem not_incomplete_of_read {bs p : Bytes} {ps : List Piece} (h : read bs = ⟨.invalid p :: ps, none⟩) :
    ¬ Incomplete p := by
  have key (b : UInt8) (done : List Piece) (h : Decoder.start done b = ⟨.invalid p :: ps, none⟩) : ¬ Incomplete p := by
    obtain ⟨rfl, hr⟩ := invalid_of_start h
    intro hi
    obtain ⟨s, -, hs⟩ := hi.read_eq
    rw [hr] at hs
    cases hs
  induction bs using List.reverseRecOn with
  | nil => cases h
  | append_singleton bs b _ =>
    rw [read_concat] at h
    unfold Decoder.feed at h
    split at h
    · exact key _ _ h
    · split at h
      · dsimp only at h
        split at h
        · have := congrArg Decoder.done h
          simp at this
        · cases congrArg Decoder.begun h
      · exact key _ _ h

/-! ## Texts -/

/-- `s` is the text of `bs`, one replacement character standing for each maximal invalid piece. -/
def Reads (bs : Bytes) (s : String) : Prop := ∃ ps, Cuts bs ps ∧ s.toList = ps.map Piece.shown

/-- `s` is the text of `bs` as for `Reads`, but for an invalid piece at the end that begins a character. -/
inductive ReadsCut (bs : Bytes) (s : String) : Prop where
  | whole {ps : List Piece} (h : Cuts bs ps) (hlast : ∀ p, ps.getLast? = some (.invalid p) → ¬ Incomplete p)
      (hs : s.toList = ps.map Piece.shown)
  | cut {ps : List Piece} {p : Bytes} (h : Cuts bs (ps ++ [.invalid p])) (hp : Incomplete p)
      (hs : s.toList = ps.map Piece.shown)

theorem reads_decode (bs : Bytes) : Reads bs (decode bs) :=
  ⟨pieces bs, cuts_iff.2 rfl, String.toList_ofList⟩

theorem reads_iff {bs : Bytes} {s : String} : Reads bs s ↔ s = decode bs := by
  constructor
  · rintro ⟨ps, h, hs⟩
    rw [decode, ← cuts_iff.1 h, ← hs, String.ofList_toList]
  · rintro rfl
    exact reads_decode bs

theorem reads_decodeCut (bs : Bytes) : ReadsCut bs (decodeCut bs) := by
  cases h : (read bs).begun with
  | some s =>
    have hc : Cuts bs (settled bs ++ [.invalid s.bytes]) := by
      rw [cuts_iff, pieces, h]
    exact .cut hc (incomplete_of_begun h) String.toList_ofList
  | none =>
    have hc : Cuts bs (settled bs) := by
      rw [cuts_iff, pieces, h]
    refine .whole hc (fun p hp => ?_) String.toList_ofList
    rw [settled, List.getLast?_reverse] at hp
    obtain ⟨ps, hps⟩ := List.head?_eq_some_iff.1 hp
    have hr : read bs = ⟨.invalid p :: ps, none⟩ := by rw [← hps, ← h]
    exact not_incomplete_of_read hr

/-- Reading on adds to what is settled. -/
theorem settled_mono {a b : Bytes} (h : a <+: b) : settled a <+: settled b := by
  obtain ⟨rest, rfl⟩ := h
  have hd : read (a ++ rest) = (rest.foldl Decoder.feed ⟨[], (read a).begun⟩).onto (read a).done := by
    rw [read_append, ← Decoder.foldl_feed_onto]
    rfl
  rw [settled, settled, hd]
  exact ⟨_, (List.reverse_append).symm⟩

theorem decodeCut_mono {a b : Bytes} (h : a <+: b) : (decodeCut a).toList <+: (decodeCut b).toList := by
  rw [decodeCut, decodeCut, String.toList_ofList, String.toList_ofList]
  exact (settled_mono h).map Piece.shown

/-- What is not settled at the end is at most three bytes of a character, and the rest is cut into the settled pieces. -/
theorem exists_cuts_settled (bs : Bytes) :
    ∃ whole tail, bs = whole ++ tail ∧ tail.length ≤ 3 ∧ (tail = [] ∨ Incomplete tail) ∧ Cuts whole (settled bs) := by
  cases h : (read bs).begun with
  | none =>
    refine ⟨bs, [], (List.append_nil bs).symm, Nat.zero_le 3, .inl rfl, cuts_iff.2 ?_⟩
    rw [pieces, h]
  | some s =>
    obtain ⟨whole, hw, hp⟩ := exists_whole h
    have hi := incomplete_of_begun h
    exact ⟨whole, s.bytes, hw, hi.length_le, .inr hi, cuts_iff.2 hp.symm⟩

/-- What is dropped at the end is at most three bytes of a character, and the rest is read in full. -/
theorem exists_decodeCut_eq (bs : Bytes) :
    ∃ whole tail, bs = whole ++ tail ∧ tail.length ≤ 3 ∧ (tail = [] ∨ Incomplete tail) ∧
      decodeCut bs = decode whole := by
  obtain ⟨whole, tail, hw, hl, ht, hc⟩ := exists_cuts_settled bs
  refine ⟨whole, tail, hw, hl, ht, ?_⟩
  rw [decodeCut, decode, hc.eq_pieces]

end LogRelay.Utf8
