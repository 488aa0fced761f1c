import LogRelay.Proofs.Utf8.Chunks

/-!
# Cut text beside full text

A pointer's text is read in two ways: in full (`text`), where every maximal invalid piece shows as a replacement character,
and as text that may have been cut off (`cutText`). Whatever the bytes, the two differ in one case and by one character:
where the bytes end inside a character (`EndsWithin`), the second reading leaves that character out.
-/

namespace LogRelay.Utf8

/-- `bs` ends inside a character: its last piece `tail` is the beginning of one and not all of it, and `whole` is what
stands before. -/
structure EndsWithin (bs whole tail : Bytes) : Prop where
  eq : bs = whole ++ tail
  last : ∃ ps, Cuts bs (ps ++ [.invalid tail])
  incomplete : Incomplete tail

variable {bs whole tail : Bytes} {ps : List Piece}

theorem Cuts.endsWithin (h : Cuts bs (ps ++ [.invalid tail])) (ht : Incomplete tail) :
    ∃ whole, EndsWithin bs whole tail := by
  obtain ⟨front, back, he, -, hb⟩ := h.split
  exact ⟨front, hb.invalid_singleton ▸ he, ⟨ps, h⟩, ht⟩

theorem EndsWithin.exists_cuts (h : EndsWithin bs whole tail) :
    ∃ ps, Cuts whole ps ∧ Cuts bs (ps ++ [.invalid tail]) := by
  obtain ⟨ps, hps⟩ := h.last
  obtain ⟨front, back, he, hf, hb⟩ := hps.split
  rw [hb.invalid_singleton, h.eq] at he
  exact ⟨ps, List.append_cancel_right he ▸ hf, hps⟩

/-- Where the bytes end inside a character, that one shows as a replacement character in the full text alone. -/
theorem EndsWithin.texts (h : EndsWithin bs whole tail) :
    decode bs = (decodeChunks bs).push replacement ∧ decodeChunks bs = decode whole := by
  obtain ⟨ps, hw, hbs⟩ := h.exists_cuts
  have hcut : decodeChunks bs = decode whole := by
    rw [decodeChunks, hbs.shownCut_of_cut h.incomplete, decode, ← hw.eq_pieces]
  refine ⟨?_, hcut⟩
  rw [hcut, decode, decode, ← hbs.eq_pieces, ← hw.eq_pieces, List.map_append, ← String.toList_inj, String.toList_push,
    String.toList_ofList, String.toList_ofList]
  rfl

theorem decodeChunks_eq_decode (h : ¬ ∃ whole tail, EndsWithin bs whole tail) : decodeChunks bs = decode bs := by
  have hcuts : Cuts bs (pieces bs) := cuts_iff.2 rfl
  rw [decodeChunks, decode, hcuts.shownCut_of_whole fun bad hlast hi => ?_]
  obtain ⟨ps, hps⟩ := List.getLast?_eq_some_iff.1 hlast
  rw [hps] at hcuts
  obtain ⟨whole, hw⟩ := hcuts.endsWithin hi
  exact h ⟨whole, bad, hw⟩

/-- The test holds of the last chunk just where the bytes end inside a character. -/
theorem exists_endsWithin_iff :
    (∃ whole, EndsWithin bs whole tail) ↔ lastInvalid (chunks bs) = some tail ∧ isCutShort tail = true := by
  constructor
  · rintro ⟨whole, h⟩
    obtain ⟨ps, -, hps⟩ := h.exists_cuts
    refine ⟨?_, h.incomplete.isCutShort⟩
    rw [chunks, ← hps.eq_pieces, lastInvalid_chunksOf_append ps (List.cons_ne_nil _ [])]
    rfl
  · rintro ⟨hlast, hcut⟩
    have hcuts : Cuts bs (pieces bs) := cuts_iff.2 rfl
    rw [chunks] at hlast
    generalize pieces bs = ps at hlast hcuts
    induction ps using List.reverseRecOn with
    | nil => cases hlast
    | append_singleton front p _ =>
      rw [lastInvalid_chunksOf_append front (List.cons_ne_nil p [])] at hlast
      cases p with
      | char c =>
        cases hlast
        cases hcut
      | invalid bad =>
        cases hlast
        obtain ⟨rest, hbad⟩ := hcuts.exists_maximalInvalid (List.mem_append_right front (List.mem_singleton_self _))
        exact hcuts.endsWithin (hbad.isCutShort_iff.1 hcut)

/-- Before the last piece every invalid one shows, also one that begins a character. -/
theorem Cuts.getElem?_decodeChunks {bad : Bytes} {qs : List Piece} (h : Cuts bs (ps ++ .invalid bad :: qs))
    (hqs : qs ≠ []) : (decodeChunks bs).toList[ps.length]? = some replacement := by
  have hnil := h.invalid_nil_notMem
  have hps : .invalid [] ∉ ps := fun hm => hnil (List.mem_append_left _ hm)
  have hbad : Piece.invalid bad ≠ .invalid [] := fun he => hnil (he ▸ List.mem_append_right ps List.mem_cons_self)
  rw [decodeChunks, String.toList_ofList, chunks, ← h.eq_pieces, shownCut_chunksOf_append hps (List.cons_ne_nil _ qs),
    shownCut_chunksOf_cons hbad hqs, List.getElem?_append_right (by rw [List.length_map]), List.length_map, Nat.sub_self]
  rfl

end LogRelay.Utf8

namespace LogRelay.TextPointer

open Utf8

theorem text_some {bs : Bytes} (h : 0 ∉ bs) : text (some bs) = decode bs := congrArg decode (Bytes.untilNul_eq_self h)

theorem cutText_some {bs : Bytes} (h : 0 ∉ bs) : cutText (some bs) = decodeChunks bs :=
  congrArg decodeChunks (Bytes.untilNul_eq_self h)

/-- The text of bytes that may have been cut off is their full text, but where they end inside a character: then the full
text has one replacement character more, and the other is the full text of what stands before. The test that decides it
holds of the last chunk in just this case. Of the same bytes before the last piece it holds too, and they are replaced. -/
theorem only_a_cut_character_is_dropped {bs : Bytes} (h : 0 ∉ bs) :
    Reads bs (text (some bs)) ∧
      ((¬ ∃ whole tail, EndsWithin bs whole tail) → cutText (some bs) = text (some bs)) ∧
      (∀ whole tail, EndsWithin bs whole tail →
        text (some bs) = (cutText (some bs)).push replacement ∧ cutText (some bs) = text (some whole)) ∧
      (∀ tail, (lastInvalid (chunks bs) = some tail ∧ isCutShort tail = true) ↔ ∃ whole, EndsWithin bs whole tail) ∧
      ∀ ps bad qs, Cuts bs (ps ++ .invalid bad :: qs) → qs ≠ [] → Incomplete bad →
        isCutShort bad = true ∧ (cutText (some bs)).toList[ps.length]? = some replacement := by
  rw [text_some h, cutText_some h]
  refine ⟨reads_decode bs, decodeChunks_eq_decode, ?_, fun tail => exists_endsWithin_iff.symm, ?_⟩
  · intro whole tail hw
    have hwhole : 0 ∉ whole := fun h0 => h (hw.eq ▸ List.mem_append_left tail h0)
    rw [text_some hwhole]
    exact hw.texts
  · intro ps bad qs hcuts hqs hbad
    exact ⟨hbad.isCutShort, hcuts.getElem?_decodeChunks hqs⟩

/-- Two bytes of `€` stand before the last piece and again at the end. -/
theorem only_a_cut_character_is_dropped_begun_twice :
    let bs : Bytes := [0xE2, 0x82, 0x41, 0xE2, 0x82]
    let whole : Bytes := [0xE2, 0x82, 0x41]
    let tail : Bytes := [0xE2, 0x82]
    0 ∉ bs ∧ EndsWithin bs whole tail ∧ Cuts bs ([] ++ .invalid tail :: [.char 'A', .invalid tail]) ∧
      text (some bs) = (cutText (some bs)).push replacement ∧ cutText (some bs) = text (some whole) ∧
      lastInvalid (chunks bs) = some tail ∧ isCutShort tail = true ∧
      (cutText (some bs)).toList[0]? = some replacement := by
  intro bs whole tail
  have h : 0 ∉ bs := by decide
  have hi : Incomplete tail := ⟨by decide, '€', [0xAC], by decide, by decide⟩
  have hc : Cuts bs [.invalid tail, .char 'A', .invalid tail] := cuts_iff.2 (by decide)
  have hw : EndsWithin bs whole tail := ⟨rfl, ⟨[.invalid tail, .char 'A'], hc⟩, hi⟩
  obtain ⟨-, -, hcut, htest, hmiddle⟩ := only_a_cut_character_is_dropped h
  obtain ⟨htext, hwhole⟩ := hcut whole tail hw
  obtain ⟨hlast, hshort⟩ := (htest tail).2 ⟨whole, hw⟩
  have hshown := (hmiddle [] tail [.char 'A', .invalid tail] hc (List.cons_ne_nil _ _) hi).2
  exact ⟨h, hw, hc, htext, hwhole, hlast, hshort, hshown⟩

end LogRelay.TextPointer
