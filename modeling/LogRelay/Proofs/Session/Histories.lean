import LogRelay.Proofs.Gate
import LogRelay.Proofs.Session.Anchored
import LogRelay.Proofs.Session.Clients

/-!
# Histories

A delivery goes to the sink of the interface that the handle or the client was made from (`Anchored.arrives`), and a
recorder receives what is handed to it and nothing else, in order (`history_run`).
-/

namespace LogRelay

/-- The record that a hand-over brings to the recorder of a name. -/
def HandOver.noted? (name : String) (h : HandOver) : Option Record :=
  match h.sink with
  | .recorder _ => if h.name = name then some h.record else none
  | _ => none

/-- The name of the sink that a step is to make. -/
def Step.made? : Step → Option String
  | makeSink name _ => some name
  | _ => none

theorem Client.receiver_of_expand {c : Client} {g : GuardedCall} {d : Delivery} (hd : c.expand g = some d) :
    c.handle.receiver = some d.receiver := by
  rw [expand_eq] at hd
  split at hd
  · exact (eq_of_send hd).1
  · cases hd

namespace Session

variable {s s' : Session}

/-- The handle that a step goes through, a client's own where it goes through a client, and the interface it is from. -/
def through? (s : Session) : Step → Option (Derived Handle)
  | .connect _ (some on) => s.handle? on
  | .call (some on) _ _ => s.handle? on
  | .send client _ => (s.clients.lookup client).map fun c => ⟨c.origin, c.value.handle⟩
  | .guarded client _ => (s.clients.lookup client).map fun c => ⟨c.origin, c.value.handle⟩
  | .levelEnabled client _ _ => (s.clients.lookup client).map fun c => ⟨c.origin, c.value.handle⟩
  | _ => none

/-- What the recorder of a name has received, the oldest first. -/
def history (s : Session) (name : String) : List Record :=
  match s.sinks.lookup name with
  | some (.recorder k) => k.received.reverse
  | _ => []

/-- The records that a run brings to the recorder of a name, in order. -/
def recordsTo (s : Session) (name : String) (steps : List (String × Step)) : List Record :=
  (s.handOvers steps).filterMap (HandOver.noted? name)

/-- No sink of the name is there when the run makes one. -/
def MakesAnew (name : String) : Session → List (String × Step) → Prop
  | _, [] => True
  | s, (now, x) :: rest => (x.made? = some name → s.sinks.lookup name = none) ∧ (s.step now x).1.MakesAnew name rest

/-! ## Where deliveries go -/

theorem through?_of_delivery {x : Step} {d : Delivery} (hd : s.delivery? x = some d) :
    ∃ o, s.through? x = some o ∧ o.value.receiver = some d.receiver := by
  cases x with
  | call on route c =>
    cases on with
    | none => cases route <;> cases hd
    | some on =>
      obtain ⟨h, hh, hd⟩ := Option.bind_eq_some_iff.1 hd
      exact ⟨h, hh, Route.receiver_of_deliver hd⟩
  | send client r =>
    obtain ⟨c, hc, hd⟩ := Option.bind_eq_some_iff.1 hd
    exact ⟨⟨c.origin, c.value.handle⟩, by simp [through?, hc], (Client.eq_of_send hd).1⟩
  | guarded client g =>
    obtain ⟨c, hc, hd⟩ := Option.bind_eq_some_iff.1 hd
    exact ⟨⟨c.origin, c.value.handle⟩, by simp [through?, hc], Client.receiver_of_expand hd⟩
  | _ => cases hd

theorem Anchored.of_through? (h : s.Anchored) {x : Step} {o : Derived Handle} (ho : s.through? x = some o) :
    ∃ i ∈ s.interfaces, o.value.From o.origin i := by
  have client (name : String) (hc : (s.clients.lookup name).map (fun c => ⟨c.origin, c.value.handle⟩) = some o) :
      ∃ i ∈ s.interfaces, o.value.From o.origin i := by
    obtain ⟨c, hl, rfl⟩ := Option.map_eq_some_iff.1 hc
    exact h.clients _ (mem_of_lookup hl)
  cases x with
  | connect name on =>
    cases on with
    | none => cases ho
    | some on => exact h.of_handle? ho
  | call on route c =>
    cases on with
    | none => cases ho
    | some on => exact h.of_handle? ho
  | send name r => exact client name ho
  | guarded name g => exact client name ho
  | levelEnabled name level topic => exact client name ho
  | _ => cases ho

theorem handed?_of_through {x : Step} {o : Derived Handle} (ho : s.through? x = some o) :
    s.handed? x = (s.delivery? x).bind s.arrival? := by
  cases x with
  | hand name r => cases ho
  | _ => rfl

/-- What is delivered arrives at the sink of the interface that it was sent through. -/
theorem Anchored.arrives (h : s.Anchored) {x : Step} {d : Delivery} (hd : s.delivery? x = some d) (now : String) :
    ∃ o i sink, s.through? x = some o ∧ i ∈ s.interfaces ∧ o.value.From o.origin i ∧
      s.sinks.lookup i.2.sink = some sink ∧ s.handOver? now x = some ⟨now, i.2.sink, sink, d.record⟩ := by
  obtain ⟨o, ho, hr⟩ := through?_of_delivery hd
  obtain ⟨i, hi, hf⟩ := h.of_through? ho
  obtain ⟨sink, hs⟩ := Option.isSome_iff_exists.1 (h.hosted i hi)
  refine ⟨o, i, sink, ho, hi, hf, hs, ?_⟩
  have ha : s.arrival? d = some (i.2.sink, d.record) := by
    rw [arrival?, hf.receiver _ hr, h.interfaceOf?_eq hi, Option.map_some]
  rw [handOver?, handed?_of_through ho, hd, Option.bind_some, ha, Option.bind_some, hs, Option.map_some]

/-! ## What recorders receive -/

theorem history_handedOver {now : String} {x : Step} {h : HandOver} (hh : s.handOver? now x = some h) (name : String) :
    (s.handedOver h).history name = s.history name ++ (h.noted? name).toList := by
  have hs := (lookup_of_handOver hh).2.1
  have hl := s.lookup_handedOver h name
  by_cases hn : h.name = name
  · rw [if_pos hn.symm, ← hn, hs, Option.map_some] at hl
    rw [hn] at hl hs
    cases hk : h.sink <;> simp [history, hl, hs, HandOver.noted?, hk, hn, Sink.after]
  · rw [if_neg (Ne.symm hn)] at hl
    have hnone : h.noted? name = none := by
      unfold HandOver.noted?
      split
      · rw [if_neg hn]
      · rfl
    simp [history, hl, hnone]

theorem history_quiet {x : Step} (hq : Quiet s x s') {name : String}
    (hx : x.made? = some name → s.sinks.lookup name = none) : s'.history name = s.history name := by
  cases hq with
  | sink name' request hm =>
    by_cases hn : name = name'
    · subst hn
      have hl := hx rfl
      cases hm <;> simp [history, hl]
    · simp [history, List.lookup_cons, beq_false_of_ne hn]
  | _ => rfl

theorem history_step (now : String) {x : Step} {name : String}
    (hx : x.made? = some name → s.sinks.lookup name = none) :
    (s.step now x).1.history name = s.history name ++ ((s.handOver? now x).bind (HandOver.noted? name)).toList := by
  rcases s.step_cases now x with ⟨h, hh, hs⟩ | ⟨hh, hq⟩
  · rw [hh, hs, history_handedOver hh]
    rfl
  · rw [hh, history_quiet hq hx]
    simp

/-- A recorder receives the records that a run brings to it, and nothing else. -/
theorem history_run {name : String} {steps : List (String × Step)} (hm : s.MakesAnew name steps) :
    (s.run steps).1.history name = s.history name ++ s.recordsTo name steps := by
  induction steps generalizing s with
  | nil => simp [run, recordsTo, handOvers]
  | cons e steps ih =>
    obtain ⟨he, hm⟩ := hm
    show ((s.step e.1 e.2).1.run steps).1.history name = _
    rw [ih hm, history_step e.1 he, recordsTo, recordsTo, handOvers, List.filterMap_append, List.append_assoc]
    congr 2
    cases s.handOver? e.1 e.2 with
    | none => rfl
    | some h => cases hn : h.noted? name <;> simp [hn]

end Session
end LogRelay
