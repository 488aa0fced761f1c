import LogRelay.Proofs.Acceptance
import LogRelay.Proofs.Session.Change

/-!
# What holds of every session

`Wired` is the invariant that makes deliveries arrive: every interface has the handle that was made for it, no two share
a receiver, and the sink it was made over is still there. A client calls through the table of its handle. `Reached` are
the sessions that steps lead to from one without interfaces.
-/

namespace LogRelay

namespace Session

variable {s s' : Session}

theorem lookup_setSink (s : Session) (name other : String) (sink : Sink) :
    (s.setSink name sink).sinks.lookup other =
      if other = name then (s.sinks.lookup other).map fun _ => sink else s.sinks.lookup other := by
  show (s.sinks.map fun e => if e.1 = name then (name, sink) else e).lookup other = _
  induction s.sinks with
  | nil => simp
  | cons e es ih =>
    obtain ⟨key, old⟩ := e
    have hkey : (if key = name then (name, sink) else (key, old)).1 = key := by
      split
      · next hk => exact hk.symm
      · rfl
    rw [List.map_cons, List.lookup_cons, List.lookup_cons, hkey, ih]
    by_cases ho : other = key
    · subst ho
      by_cases hk : other = name <;> simp [hk]
    · rw [beq_false_of_ne ho]

theorem lookup_handedOver (s : Session) (h : HandOver) (name : String) :
    (s.handedOver h).sinks.lookup name =
      if name = h.name then (s.sinks.lookup name).map fun _ => h.sink.after h.record else s.sinks.lookup name := by
  rw [← Sink.sink_accept h.sink s.logger s.files h.now h.record]
  exact s.lookup_setSink h.name name _

/-- The interfaces of a session and its clients are as they were made. -/
structure Wired (s : Session) : Prop where
  own : ∀ e ∈ s.interfaces, ∃ level, e.2.handle = .own e.2.receiver level
  fresh : ∀ e ∈ s.interfaces, e.2.receiver < s.next
  apart : s.interfaces.Pairwise fun e e' => e.2.receiver ≠ e'.2.receiver
  hosted : ∀ e ∈ s.interfaces, (s.sinks.lookup e.2.sink).isSome
  table : ∀ e ∈ s.clients, e.2.value.handle.methods = some e.2.value.methods

theorem mem_of_lookup {α : Type} {table : List (String × α)} {name : String} {a : α}
    (h : table.lookup name = some a) : (name, a) ∈ table := by
  obtain ⟨l, r, rfl, -⟩ := List.lookup_eq_some_iff.1 h
  simp

theorem Wired.quiet {x : Step} (h : s.Wired) (hq : Quiet s x s') : s'.Wired := by
  cases hq with
  | nothing => exact h
  | sink name request hm =>
    refine { h with hosted := fun e he => ?_ }
    rw [List.lookup_cons]
    split
    · rfl
    · exact h.hosted e he
  | interface name sink level hs =>
    refine ⟨fun e he => ?_, fun e he => ?_, List.pairwise_cons.2 ⟨fun e he => ?_, h.apart⟩, fun e he => ?_, h.table⟩
    · rcases List.mem_cons.1 he with rfl | he
      · exact ⟨level, rfl⟩
      · exact h.own e he
    · rcases List.mem_cons.1 he with rfl | he
      · exact Nat.lt_succ_self _
      · exact Nat.lt_succ_of_lt (h.fresh e he)
    · exact (Nat.ne_of_lt (h.fresh e he)).symm
    · rcases List.mem_cons.1 he with rfl | he
      · exact hs
      · exact h.hosted e he
  | host name origin a hi => exact ⟨h.own, h.fresh, h.apart, h.hosted, h.table⟩
  | destroyed name =>
    exact ⟨fun e he => h.own e (List.mem_filter.1 he).1, fun e he => h.fresh e (List.mem_filter.1 he).1,
      h.apart.filter _, fun e he => h.hosted e (List.mem_filter.1 he).1,
      fun e he => h.table e (List.mem_filter.1 he).1⟩
  | ownClient name origin hi =>
    refine { h with table := fun e he => ?_ }
    rcases List.mem_cons.1 he with rfl | he
    · obtain ⟨level, hl⟩ := h.own _ (mem_of_lookup hi)
      show Handle.methods _ = some .own
      rw [hl]
      rfl
    · exact h.table e he
  | client name on hh hc =>
    refine { h with table := fun e he => ?_ }
    rcases List.mem_cons.1 he with rfl | he
    · exact Client.methods_of_connect hc
    · exact h.table e he
  | replaced path content => exact ⟨h.own, h.fresh, h.apart, h.hosted, h.table⟩
  | directory path => exact ⟨h.own, h.fresh, h.apart, h.hosted, h.table⟩
  | refused path number => exact ⟨h.own, h.fresh, h.apart, h.hosted, h.table⟩
  | logger bound => exact ⟨h.own, h.fresh, h.apart, h.hosted, h.table⟩

theorem Wired.handedOver (h : s.Wired) (ho : HandOver) : (s.handedOver ho).Wired := by
  refine ⟨h.own, h.fresh, h.apart, fun e he => ?_, h.table⟩
  rw [lookup_handedOver]
  split
  · rw [Option.isSome_map]
    exact h.hosted e he
  · exact h.hosted e he

theorem Wired.step (h : s.Wired) (now : String) (x : Step) : (s.step now x).1.Wired := by
  rcases s.step_cases now x with ⟨ho, -, hs⟩ | ⟨-, hq⟩
  · rw [hs]
    exact h.handedOver ho
  · exact h.quiet hq

/-- The sessions that steps lead to, from one that may have sinks but nothing made over them. -/
inductive Reached : Session → Prop where
  | start {s : Session} (hi : s.interfaces = []) (hc : s.clients = []) : Reached s
  | step {s : Session} (h : Reached s) (now : String) (x : Step) : Reached (s.step now x).1

theorem Reached.wired (h : Reached s) : s.Wired := by
  induction h with
  | start hi hc => constructor <;> simp [hi, hc]
  | step _ now x ih => exact ih.step now x

theorem Reached.run (h : Reached s) (steps : List (String × Step)) : Reached (s.run steps).1 :=
  run_preserves (fun _ now x h => h.step now x) h steps

/-- A session with one interface, over a recorder. -/
def single : Session :=
  (initial.run [("", .makeSink "sink" .recorder), ("", .makeInterface "main" "sink" .info)]).1

theorem reached_single : Reached single := (Reached.start rfl rfl).run _

theorem lookup_single : single.interfaces.lookup "main" = some ⟨.own 1 .info, 1, "sink"⟩ := by decide

end Session
end LogRelay
