import LogRelay.Proofs.Session.Handing

/-!
# Calls on interfaces

Whatever its route, a call on an interface hands one record to the sink of the interface: the one that the call stands
for, without its topic on the routes that take none.
-/

namespace LogRelay.Session

variable {s : Session}

theorem Wired.step_call (h : s.Wired) {name : String} {i : Interface} (hi : s.interfaces.lookup name = some i)
    (now : String) (route : Route) (c : Call) :
    HandsOver s now (.call (some name) route c) i.sink (route.slot.taken c).record := by
  obtain ⟨level, hl⟩ := h.own _ (mem_of_lookup hi)
  refine h.handsOver_of_deliver (mem_of_lookup hi) ?_
  have hh : s.handle? name = some ⟨some name, i.handle⟩ := by simp only [handle?, hi]
  show s.withHandle (some name) (fun _ h => s.deliver now (route.deliver h c)) = _
  simp only [withHandle, hh]
  rw [show i.handle = _ from hl, Route.deliver_own]

/-- Every call on an interface hands its sink one record, the same on all routes that take a topic and the same on all
that do not; a call without a topic is the same on every route. -/
theorem call_hands_over_record (h : Reached s) {name : String} {i : Interface}
    (hi : s.interfaces.lookup name = some i) (c : Call) :
    ∃ plain topical, c.withoutTopic.Records plain ∧ c.Records topical ∧ (c.topic = none → topical = plain) ∧
      ∀ now route,
        HandsOver s now (.call (some name) route c) i.sink (if route.slot.takesTopic then topical else plain) ∧
        HandsOver s now (.call (some name) route c.withoutTopic) i.sink plain := by
  refine ⟨c.withoutTopic.record, c.record, c.withoutTopic.records_record, c.records_record, fun ht => ?_,
    fun now route => ⟨?_, ?_⟩⟩
  · rw [Call.withoutTopic_eq ht]
  · have hc := h.wired.step_call hi now route c
    rwa [Slot.taken, apply_ite Call.record] at hc
  · have hc := h.wired.step_call hi now route c.withoutTopic
    rwa [Slot.taken, show c.withoutTopic.withoutTopic = c.withoutTopic from rfl, ite_self] at hc

/-- A call with levels out of range, null pointers and a negative line, whose text ends at a NUL that it renders itself. Of
its arguments the second is the place for a count. -/
def irregular : Call :=
  ⟨9, some ⟨3, some (Format.ascii "net\x00work"), 7, 0x80⟩, none, -5, none, some (Format.ascii "%s%n%c%c!"),
    [.text 0x1000 [0x61, 0xC3], .word 0x2000, .word 0x62, .word 0]⟩

theorem message_irregular : irregular.record.message = "a\uFFFDb" := by
  have hs : Format.segments (Format.ascii "%s%n%c%c!") =
      [.directive ⟨.next, [], none, none, .plain, .text false⟩, .directive ⟨.next, [], none, none, .plain, .count⟩,
        .directive ⟨.next, [], none, none, .plain, .character false⟩,
        .directive ⟨.next, [], none, none, .plain, .character false⟩, .byte 0x21] := by decide +kernel
  have hr : Format.render irregular.format.bytes irregular.args = [0x61, 0xC3, 0x62, 0, 0x21] := by
    show Format.render (Format.ascii "%s%n%c%c!") irregular.args = _
    rw [Format.render, Format.rendered, hs]
    rfl
  rw [Call.message_record, hr]
  decide

theorem call_hands_over_record_single :
    let plain : Record := ⟨.trace, none, "", 0, "", "a\uFFFDb"⟩
    let topical : Record := ⟨.trace, some ⟨3, "net", .trace, true⟩, "", 0, "", "a\uFFFDb"⟩
    Reached single ∧ single.interfaces.lookup "main" = some ⟨.own 1 .info, 1, "sink"⟩ ∧
      irregular.withoutTopic.Records plain ∧ irregular.Records topical ∧
        ∀ now route,
          HandsOver single now (.call (some "main") route irregular) "sink"
            (if route.slot.takesTopic then topical else plain) ∧
          HandsOver single now (.call (some "main") route irregular.withoutTopic) "sink" plain := by
  intro plain topical
  have hplain : irregular.withoutTopic.record = plain := by
    refine Record.ext (by decide) rfl rfl (by decide) rfl ?_
    exact message_irregular
  have htopical : irregular.record = topical := by
    refine Record.ext (by decide) (by decide) rfl (by decide) rfl message_irregular
  obtain ⟨p, t, hp, ht, -, hover⟩ := call_hands_over_record reached_single lookup_single irregular
  obtain rfl : p = plain := hp.eq_record.trans hplain
  obtain rfl : t = topical := ht.eq_record.trans htopical
  exact ⟨reached_single, lookup_single, hp, ht, hover⟩

end LogRelay.Session
