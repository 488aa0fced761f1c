import LogRelay.Proofs.Format.Render

/-!
# Escaped text

A text becomes a format of its own by doubling its percent signs. The format shows that text whatever arguments stand
behind it (`render_escaped`), since none of its directives takes one. It may be twice as long as the text.
-/

namespace LogRelay.Format

/-- A text as a format: every percent sign is doubled. -/
def escaped (bs : Bytes) : Bytes := bs.flatMap fun b => if b = '%'.toUInt8 then [b, b] else [b]

@[simp] theorem escaped_nil : escaped [] = [] := rfl

theorem escaped_cons_percent (bs : Bytes) : escaped ('%'.toUInt8 :: bs) = '%'.toUInt8 :: '%'.toUInt8 :: escaped bs := rfl

theorem escaped_cons_of_ne {b : UInt8} (h : b ≠ '%'.toUInt8) (bs : Bytes) : escaped (b :: bs) = b :: escaped bs := by
  rw [escaped, List.flatMap_cons, if_neg h, List.singleton_append, ← escaped]

theorem untilNul_escaped (bs : Bytes) : Bytes.untilNul (escaped bs) = escaped (Bytes.untilNul bs) := by
  have hcons (b : UInt8) (rest : Bytes) :
      Bytes.untilNul (b :: rest) = if b = 0 then [] else b :: Bytes.untilNul rest := by
    rw [Bytes.untilNul, List.takeWhile_cons]
    by_cases h0 : b = 0 <;> simp [h0, Bytes.untilNul]
  induction bs with
  | nil => rfl
  | cons b bs ih =>
    by_cases hb : b = '%'.toUInt8
    · have h0 : '%'.toUInt8 ≠ 0 := by decide
      rw [hb, escaped_cons_percent, hcons, hcons, hcons, if_neg h0, if_neg h0, if_neg h0, ih, escaped_cons_percent]
    · rw [escaped_cons_of_ne hb, hcons, hcons, ih]
      split
      · rfl
      · rw [escaped_cons_of_ne hb]

def Directive.percentSign : Directive := ⟨.next, [], none, none, .plain, .percent⟩

theorem read_percentSign (rest : Bytes) : Directive.read ('%'.toUInt8 :: rest) = (.percentSign, rest) := rfl

/-- The segment that shows one byte of an escaped text. -/
def Segment.showing (b : UInt8) : Segment := if b = '%'.toUInt8 then .directive .percentSign else .byte b

theorem segments_escaped (bs : Bytes) : segments (escaped bs) = bs.map Segment.showing := by
  induction bs with
  | nil => exact segments_nil
  | cons b bs ih =>
    by_cases hb : b = '%'.toUInt8
    · rw [hb, escaped_cons_percent, segments, if_pos rfl, read_percentSign, ih]
      rfl
    · rw [escaped_cons_of_ne hb, segments, if_neg hb, ih, List.map_cons, Segment.showing, if_neg hb]

theorem scheduled_showing (bs : Bytes) :
    scheduled (bs.map Segment.showing) = bs.map fun b => (.ordered, .showing b) := by
  induction bs with
  | nil => rfl
  | cons b bs ih =>
    have hrest (s : Segment) (hs : s = .byte b ∨ s = .directive .percentSign) :
        scheduled (s :: bs.map Segment.showing) = (.ordered, s) :: scheduled (bs.map Segment.showing) := by
      rcases hs with rfl | rfl <;> rfl
    rw [List.map_cons, List.map_cons, ← ih]
    refine hrest _ ?_
    unfold Segment.showing
    split
    · exact .inr rfl
    · exact .inl rfl

/-- No part of an escaped text takes an argument. -/
theorem segmentUses_showing (bs : Bytes) (taken : Nat) :
    segmentUses (bs.map fun b => (Mode.ordered, Segment.showing b)) taken = [] := by
  induction bs generalizing taken with
  | nil => rfl
  | cons b bs ih =>
    rw [List.map_cons, Segment.showing]
    split
    · exact ih taken
    · exact ih taken

theorem rendered_escaped (bs : Bytes) : rendered (escaped bs) = bs.map fun b => (.ordered, .showing b) := by
  rw [rendered, segments_escaped, scheduled_showing, collectable, segmentUses_showing]
  exact if_pos (Nat.zero_le _)

theorem renderSegments_showing (bs : Bytes) (as : Arguments) :
    renderSegments (bs.map fun b => (.ordered, .showing b)) as = bs := by
  induction bs generalizing as with
  | nil => rfl
  | cons b bs ih =>
    have hb : (Segment.showing b).output .ordered as = ([.literal [b]], some as) := by
      unfold Segment.showing
      split
      · next h => rw [h]; rfl
      · rfl
    rw [List.map_cons, renderSegments, hb]
    simp only [ih, Output.toBytes_cons, Output.toBytes_nil, Chunk.toBytes, List.append_nil, List.singleton_append]

/-- An escaped text shows itself, whatever arguments stand behind it. -/
theorem render_escaped (bs : Bytes) (args : List Argument) : render (escaped bs) args = bs := by
  rw [render, rendered_escaped, renderSegments_showing]

end LogRelay.Format
