import LogRelay.Proofs.Session.Wired

/-!
# Handing over

`HandsOver` says that a step hands one record to one sink and does nothing else: the session afterwards and all events
are those of this sink's reaction to this record. In a wired session every delivery to the receiver of an interface is
handed to the sink of that interface (`handsOver_of_deliver`).
-/

namespace LogRelay

/-- The record that a recorder noted, with the name of the recorder. -/
def Event.noted? : Event → Option (String × Record)
  | .recorded sink r => some (sink, r)
  | .panicked sink r => some (sink, r)
  | _ => none

namespace Session

/-- The step `x` hands the record `r` to the sink `name`, and does nothing else. Of a recorder this means that it notes
`r` and nothing more. -/
structure HandsOver (s : Session) (now : String) (x : Step) (name : String) (r : Record) : Prop where
  accepted : ∃ sink, s.sinks.lookup name = some sink ∧
    let a := sink.accept s.logger s.files now r
    (s.step now x).1 = { s.setSink name a.sink with files := a.files } ∧
    (s.step now x).2.2 = reactionEvents name a ++ (contain s.logger r a).1 ++ appendedEvents a.files a.written
  recorded : ∀ k, s.sinks.lookup name = some (.recorder k) →
    (s.step now x).1.sinks.lookup name = some (.recorder { k with received := r :: k.received }) ∧
    (s.step now x).2.2.filterMap Event.noted? = [(name, r)]
  others : ∀ other, other ≠ name → (s.step now x).1.sinks.lookup other = s.sinks.lookup other

variable {s : Session}

theorem noted_reactionEvents (name : String) (a : Reaction) :
    (reactionEvents name a).filterMap Event.noted? = (a.noted.map fun r => (name, r)).toList := by
  have hf : (a.facade.map Event.facade).toList.filterMap Event.noted? = [] := by
    cases a.facade <;> rfl
  rw [reactionEvents, List.filterMap_append, hf, List.append_nil]
  cases a.noted with
  | none => rfl
  | some r =>
    show [if a.panicked then Event.panicked name r else .recorded name r].filterMap Event.noted? = [(name, r)]
    split <;> rfl

/-- What a delivery does to a sink that is there. -/
theorem handsOver_of_receive {now name : String} {x : Step} {r : Record} {sink : Sink}
    (hs : s.sinks.lookup name = some sink)
    (hx : ((s.step now x).1, (s.step now x).2.2) =
      ((s.handOver now name sink r fun a => (contain s.logger r a).1).1,
        (s.handOver now name sink r fun a => (contain s.logger r a).1).2.1)) :
    HandsOver s now x name r := by
  obtain ⟨h1, h2⟩ := Prod.mk.inj hx
  refine ⟨⟨sink, hs, h1, h2⟩, fun k hk => ?_, fun other ho => ?_⟩
  · obtain rfl : sink = .recorder k := Option.some.inj (hs.symm.trans hk)
    refine ⟨?_, ?_⟩
    · rw [h1]
      show (s.setSink name _).sinks.lookup name = _
      rw [lookup_setSink, if_pos rfl, hs]
      rfl
    · rw [h2]
      show List.filterMap Event.noted? (_ ++ _ ++ _) = _
      rw [List.filterMap_append, List.filterMap_append, noted_reactionEvents, filterMap_contain fun _ => rfl,
        filterMap_appendedEvents fun _ _ => rfl]
      rfl
  · rw [h1]
    show (s.setSink name _).sinks.lookup other = _
    rw [lookup_setSink, if_neg ho]

theorem find?_of_pairwise {α β : Type} [DecidableEq β] {f : α → β} {l : List α}
    (h : l.Pairwise fun a b => f a ≠ f b) {a : α} (ha : a ∈ l) : (l.find? fun b => f b = f a) = some a := by
  induction l with
  | nil => cases ha
  | cons b l ih =>
    obtain ⟨hb, hl⟩ := List.pairwise_cons.1 h
    rcases List.mem_cons.1 ha with rfl | ha
    · exact List.find?_cons_of_pos (by simp)
    · rw [List.find?_cons_of_neg (by simpa using hb a ha), ih hl ha]

theorem Wired.interfaceOf?_eq (h : s.Wired) {name : String} {i : Interface} (hi : (name, i) ∈ s.interfaces) :
    s.interfaceOf? i.receiver = some i := by
  have hf := find?_of_pairwise (f := fun e : String × Interface => e.2.receiver) h.apart hi
  rw [interfaceOf?, hf]
  rfl

theorem Wired.deliver_eq (h : s.Wired) {i : String × Interface} (hi : i ∈ s.interfaces) (now : String) (r : Record) :
    ∃ sink, s.sinks.lookup i.2.sink = some sink ∧
      let d : HandOver := ⟨now, i.2.sink, sink, r⟩
      s.deliver now (some ⟨i.2.receiver, r⟩) =
        (s.handedOver d, if s.escapes d then .aborted else .done, s.shown d) := by
  obtain ⟨sink, hs⟩ := Option.isSome_iff_exists.1 (h.hosted _ hi)
  refine ⟨sink, hs, ?_⟩
  simp only [deliver, receive, h.interfaceOf?_eq hi, hs]
  rfl

/-- A delivery to an interface is handed to its sink. -/
theorem Wired.handsOver_of_deliver (h : s.Wired) {name now : String} {i : Interface} (hi : (name, i) ∈ s.interfaces)
    {x : Step} {r : Record} (hx : s.step now x = s.deliver now (some ⟨i.receiver, r⟩)) :
    HandsOver s now x i.sink r := by
  obtain ⟨sink, hs, hd⟩ := h.deliver_eq hi now r
  refine handsOver_of_receive hs ?_
  rw [hx, hd]
  rfl

end Session
end LogRelay
