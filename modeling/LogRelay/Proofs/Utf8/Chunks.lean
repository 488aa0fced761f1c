import LogRelay.Proofs.Utf8.Encoded

/-!
# Text read by chunks

Putting pieces together to chunks changes nothing but how the last of them may show (`shownCut_chunksOf_append`). It is
dropped iff it is the beginning of a character (`isCutShort_iff` with what a maximal invalid piece is), which makes
`decodeChunks` the text of what is settled.
-/

namespace LogRelay
namespace Utf8

/-! ## The test for a cut character -/

theorem exists_map_char {ps : List Piece} (h : ps.all (·.char?.isSome) = true) : ∃ cs : List Char, ps = cs.map .char := by
  induction ps with
  | nil => exact ⟨[], rfl⟩
  | cons p ps ih =>
    rw [List.all_cons, Bool.and_eq_true] at h
    obtain ⟨cs, rfl⟩ := ih h.2
    cases p with
    | char c => exact ⟨c :: cs, rfl⟩
    | invalid bad => cases h.1

theorem isCutShort_encodeChar_append (c : Char) (rest : Bytes) :
    isCutShort (String.utf8EncodeChar c ++ rest) = isCutShort rest := by
  have hb : (read (String.utf8EncodeChar c ++ rest)).begun = (read rest).begun := by
    rw [read_append_of_settled (read_encodeChar c)]
    rfl
  rw [isCutShort, isCutShort, settled_append_of_settled (read_encodeChar c), hb]
  rfl

theorem Incomplete.isCutShort {bs : Bytes} (h : Incomplete bs) : isCutShort bs = true := by
  obtain ⟨s, -, hr⟩ := h.read_eq
  rw [Utf8.isCutShort, settled, hr]
  rfl

/-- The test holds of text and the beginning of a character behind it. -/
theorem isCutShort_iff {bs : Bytes} :
    isCutShort bs = true ↔ ∃ cs tail, bs = encode cs ++ tail ∧ Incomplete tail := by
  constructor
  · intro h
    obtain ⟨hall, hb⟩ := Bool.and_eq_true_iff.1 h
    obtain ⟨s, hs⟩ := Option.isSome_iff_exists.1 hb
    obtain ⟨cs, hcs⟩ := exists_map_char hall
    obtain ⟨whole, hw, hp⟩ := exists_whole hs
    have hcuts : Cuts whole (cs.map .char) := cuts_iff.2 (hcs ▸ hp.symm)
    refine ⟨cs, s.bytes, ?_, incomplete_of_begun hs⟩
    rw [← hcuts.eq_encode, ← hw]
  · rintro ⟨cs, tail, rfl, ht⟩
    induction cs with
    | nil => exact ht.isCutShort
    | cons c cs ih => rwa [encode_cons, List.append_assoc, isCutShort_encodeChar_append]

theorem MaximalInvalid.isCutShort_iff {bad rest : Bytes} (h : MaximalInvalid bad rest) :
    isCutShort bad = true ↔ Incomplete bad := by
  refine ⟨fun hc => ?_, Incomplete.isCutShort⟩
  obtain ⟨cs, tail, rfl, ht⟩ := Utf8.isCutShort_iff.1 hc
  cases cs with
  | nil => exact ht
  | cons c cs =>
    -- no character stands at the front of an invalid piece
    refine absurd ⟨encode cs ++ tail ++ rest, ?_⟩ (h.noChar c)
    simp only [encode_cons, List.append_assoc]

/-! ## Pieces as chunks -/

theorem isEmpty_chunksOf (ps : List Piece) : (chunksOf ps).isEmpty = ps.isEmpty := by
  cases ps with
  | nil => rfl
  | cons p ps =>
    cases p with
    | invalid bad => rfl
    | char c =>
      rw [chunksOf]
      split <;> rfl

theorem shownCut_chunksOf_char (c : Char) (ps : List Piece) :
    shownCut (chunksOf (.char c :: ps)) = c :: shownCut (chunksOf ps) := by
  rw [chunksOf]
  cases chunksOf ps with
  | nil => rfl
  | cons chunk chunks =>
    simp only [shownCut, Chunk.shown]
    split <;> rfl

theorem shownCut_chunksOf_invalid (bad : Bytes) (ps : List Piece) :
    shownCut (chunksOf (.invalid bad :: ps)) = Chunk.shown ⟨[], bad⟩ ps.isEmpty ++ shownCut (chunksOf ps) := by
  rw [chunksOf, shownCut, isEmpty_chunksOf]

theorem Chunk.shown_of_kept {bad : Bytes} (hbad : bad ≠ []) {last : Bool} (h : (last && isCutShort bad) = false) :
    Chunk.shown ⟨[], bad⟩ last = [replacement] := by
  rw [Chunk.shown, h, List.isEmpty_eq_false_iff.2 hbad]
  rfl

theorem Chunk.shown_of_dropped {bad : Bytes} (h : isCutShort bad = true) : Chunk.shown ⟨[], bad⟩ true = [] := by
  rw [Chunk.shown, h, Bool.and_self, Bool.or_true]
  rfl

/-- A piece that is not the last shows as itself. -/
theorem shownCut_chunksOf_cons {p : Piece} {ps : List Piece} (hp : p ≠ .invalid []) (hps : ps ≠ []) :
    shownCut (chunksOf (p :: ps)) = p.shown :: shownCut (chunksOf ps) := by
  cases p with
  | char c => exact shownCut_chunksOf_char c ps
  | invalid bad =>
    have hbad : bad ≠ [] := fun h => hp (h ▸ rfl)
    rw [shownCut_chunksOf_invalid, List.isEmpty_eq_false_iff.2 hps, Chunk.shown_of_kept hbad (Bool.false_and _)]
    rfl

theorem shownCut_chunksOf_append {ps qs : List Piece} (hps : .invalid [] ∉ ps) (hqs : qs ≠ []) :
    shownCut (chunksOf (ps ++ qs)) = ps.map Piece.shown ++ shownCut (chunksOf qs) := by
  induction ps with
  | nil => rfl
  | cons p ps ih =>
    obtain ⟨hp, hps⟩ := not_or.1 (mt List.mem_cons.2 hps)
    rw [List.cons_append, shownCut_chunksOf_cons (Ne.symm hp) (List.append_ne_nil_of_right_ne_nil ps hqs), ih hps]
    rfl

/-- The invalid piece of the last chunk. -/
def lastInvalid (chunks : List Chunk) : Option Bytes := chunks.getLast?.map Chunk.invalid

theorem lastInvalid_cons (chunk : Chunk) {chunks : List Chunk} (h : chunks ≠ []) :
    lastInvalid (chunk :: chunks) = lastInvalid chunks := by
  rw [lastInvalid, lastInvalid, List.getLast?_cons_of_ne_nil h]

theorem lastInvalid_chunksOf_cons (p : Piece) {ps : List Piece} (hps : ps ≠ []) :
    lastInvalid (chunksOf (p :: ps)) = lastInvalid (chunksOf ps) := by
  have hne : chunksOf ps ≠ [] := by
    rwa [← List.isEmpty_eq_false_iff, isEmpty_chunksOf, List.isEmpty_eq_false_iff]
  cases p with
  | invalid bad => rw [chunksOf, lastInvalid_cons _ hne]
  | char c =>
    rw [chunksOf]
    cases hc : chunksOf ps with
    | nil => exact absurd hc hne
    | cons chunk chunks =>
      cases chunks with
      | nil => rfl
      | cons chunk' chunks => rfl

theorem lastInvalid_chunksOf_append (ps : List Piece) {qs : List Piece} (hqs : qs ≠ []) :
    lastInvalid (chunksOf (ps ++ qs)) = lastInvalid (chunksOf qs) := by
  induction ps with
  | nil => rfl
  | cons p ps ih =>
    rw [List.cons_append, lastInvalid_chunksOf_cons p (List.append_ne_nil_of_right_ne_nil ps hqs), ih]

/-! ## Texts -/

section
variable {bs : Bytes} {ps : List Piece}

theorem Cuts.invalid_nil_notMem (h : Cuts bs ps) : .invalid [] ∉ ps := fun hm =>
  let ⟨_, hbad⟩ := h.exists_maximalInvalid hm
  hbad.ne_nil rfl

/-- Only the last piece may be dropped. -/
theorem Cuts.shownCut_concat {p : Piece} (h : Cuts bs (ps ++ [p])) :
    shownCut (chunks bs) = ps.map Piece.shown ++ shownCut (chunksOf [p]) := by
  have hps : .invalid [] ∉ ps := fun hm => h.invalid_nil_notMem (List.mem_append_left [p] hm)
  rw [chunks, ← h.eq_pieces, shownCut_chunksOf_append hps (List.cons_ne_nil p [])]

theorem Cuts.shownCut_of_cut {tail : Bytes} (h : Cuts bs (ps ++ [.invalid tail])) (ht : Incomplete tail) :
    shownCut (chunks bs) = ps.map Piece.shown := by
  rw [h.shownCut_concat, shownCut_chunksOf_invalid, List.isEmpty_nil, Chunk.shown_of_dropped ht.isCutShort]
  exact List.append_nil _

theorem Cuts.shownCut_of_whole (h : Cuts bs ps)
    (hlast : ∀ bad, ps.getLast? = some (.invalid bad) → ¬ Incomplete bad) :
    shownCut (chunks bs) = ps.map Piece.shown := by
  induction ps using List.reverseRecOn with
  | nil =>
    rw [chunks, ← h.eq_pieces]
    rfl
  | append_singleton front p _ =>
    rw [h.shownCut_concat, List.map_append]
    cases p with
    | char c => rfl
    | invalid bad =>
      obtain ⟨rest, hbad⟩ := h.exists_maximalInvalid (List.mem_append_right front (List.mem_singleton_self _))
      have hkept : isCutShort bad = false := by
        rw [← Bool.not_eq_true, hbad.isCutShort_iff]
        exact hlast bad List.getLast?_concat
      rw [shownCut_chunksOf_invalid, Chunk.shown_of_kept hbad.ne_nil (by rw [hkept, Bool.and_false])]
      rfl

theorem ReadsCut.eq_decodeChunks {s : String} (h : ReadsCut bs s) : s = decodeChunks bs := by
  cases h with
  | whole h hlast hs => rw [decodeChunks, h.shownCut_of_whole hlast, ← hs, String.ofList_toList]
  | cut h ht hs => rw [decodeChunks, h.shownCut_of_cut ht, ← hs, String.ofList_toList]

end

/-- Reading by chunks shows what is settled. -/
theorem decodeChunks_eq (bs : Bytes) : decodeChunks bs = decodeCut bs := (reads_decodeCut bs).eq_decodeChunks.symm

end Utf8

/-- What a reader of text that may have been cut off sees is what is settled. -/
theorem TextPointer.cutText_eq (p : TextPointer) : p.cutText = Utf8.decodeCut p.bytes := Utf8.decodeChunks_eq p.bytes

end LogRelay
