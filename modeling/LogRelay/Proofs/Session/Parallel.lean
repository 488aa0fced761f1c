import LogRelay.Proofs.Session.Conduct

/-!
# Two sessions that take the same steps

Two sessions may differ and still answer and show the same at a step, and be related afterwards as they were before
(`Matches`). A relation of which this holds at every step that is allowed relates two sessions over a whole run
(`matches_run`). A step that logs matches where it hands the same over in both sessions (`matches_logs`).
-/

namespace LogRelay.Session

variable {s s' : Session} {x : Step} {R : Session → Session → Prop}

/-- Two outcomes that answer and show the same, with sessions that are related. -/
structure Matches (R : Session → Session → Prop) (a a' : Session × Answer × List Event) : Prop where
  sessions : R a.1 a'.1
  seen : a'.2 = a.2

/-- Each step of a run is allowed in the session that it is taken in. -/
def Along (allowed : Session → Step → Prop) : Session → List (String × Step) → Prop
  | _, [] => True
  | s, (now, x) :: rest => allowed s x ∧ (s.step now x).1.Along allowed rest

theorem along_of_forall {allowed : Session → Step → Prop} (h : ∀ s x, allowed s x) (steps : List (String × Step)) :
    s.Along allowed steps := by
  induction steps generalizing s with
  | nil => exact trivial
  | cons e steps ih => exact ⟨h s e.2, ih⟩

theorem matches_run {allowed : Session → Step → Prop}
    (hstep : ∀ s s' now x, R s s' → allowed s x → Matches R (s.step now x) (s'.step now x)) (h : R s s')
    {steps : List (String × Step)} (hs : s.Along allowed steps) :
    R (s.run steps).1 (s'.run steps).1 ∧ (s'.run steps).2 = (s.run steps).2 := by
  induction steps generalizing s s' with
  | nil => exact ⟨h, rfl⟩
  | cons e steps ih =>
    obtain ⟨he, hs⟩ := hs
    obtain ⟨hR, hseen⟩ := hstep s s' e.1 e.2 h he
    obtain ⟨hend, hrest⟩ := ih hR hs
    exact ⟨hend, congrArg₂ List.cons hseen hrest⟩

/-! ## Parts of a step -/

theorem Matches.report {d : Diagnostic} {next next' : Session × Answer × List Event} (h : R s s')
    (hl : s'.logger = s.logger) (hn : Matches R next next') : Matches R (s.report d next) (s'.report d next') := by
  unfold Session.report
  rw [hl]
  simp only
  split
  · exact ⟨h, rfl⟩
  · exact ⟨hn.sessions, by rw [hn.seen]⟩

theorem Matches.withNamed {α : Type} {table table' : List (String × α)} {name : String} {f : α → α}
    {next next' : α → Session × Answer × List Event} (h : R s s')
    (hl : table'.lookup name = (table.lookup name).map f)
    (hn : ∀ a, table.lookup name = some a → Matches R (next a) (next' (f a))) :
    Matches R (s.withNamed table name next) (s'.withNamed table' name next') := by
  unfold Session.withNamed
  rw [hl]
  cases ha : table.lookup name with
  | none => exact ⟨h, rfl⟩
  | some a => exact hn a ha

theorem seen_of_unknown (now : String) (hx : Logs x) (ho : s.through? x = none) (ho' : s'.through? x = none) :
    (s'.step now x).2 = (s.step now x).2 := by
  cases x with
  | call on route c =>
    cases on with
    | none => cases route <;> rfl
    | some on =>
      have hh : s.handle? on = none := ho
      have hh' : s'.handle? on = none := ho'
      simp [step, withHandle, hh, hh']
  | send client r =>
    have hc := Option.map_eq_none_iff.1 ho
    have hc' := Option.map_eq_none_iff.1 ho'
    simp [step, Session.withNamed, hc, hc']
  | guarded client g =>
    have hc := Option.map_eq_none_iff.1 ho
    have hc' := Option.map_eq_none_iff.1 ho'
    simp [step, Session.withNamed, hc, hc']
  | _ => exact hx.elim

section
variable {now : String} (h : R s s') (hl : s'.logger = s.logger) (hw : s'.files.watched = s.files.watched)
include h hl hw

theorem matches_logs (hx : Logs x) (ho : (s'.through? x).isSome = (s.through? x).isSome)
    (hover : s'.handOver? now x = s.handOver? now x)
    (hR : ∀ d, s.handOver? now x = some d → R (s.handedOver d) (s'.handedOver d)) :
    Matches R (s.step now x) (s'.step now x) := by
  refine ⟨?_, ?_⟩
  · cases hh : s.handOver? now x with
    | some d =>
      rw [step_of_handOver hh, step_of_handOver (hover.trans hh)]
      exact hR d hh
    | none =>
      rw [(step_of_not_handed hx hh).1, (step_of_not_handed hx (hover.trans hh)).1]
      exact h
  · cases hthrough : s.through? x with
    | none =>
      rw [hthrough, Option.isSome_none, Option.isSome_eq_false_iff, Option.isNone_iff_eq_none] at ho
      exact seen_of_unknown now hx hthrough ho
    | some o =>
      rw [hthrough, Option.isSome_some, Option.isSome_iff_exists] at ho
      obtain ⟨o', ho'⟩ := ho
      rw [seen_of_logs now hx hthrough, seen_of_logs now hx ho', hover]
      cases s.handOver? now x with
      | none => rfl
      | some d =>
        obtain ⟨hshown, hescapes⟩ := shown_congr hl hw d
        simp only [hshown, hescapes]

theorem matches_hand {name : String} {r : Record} (hs : s'.sinks.lookup name = s.sinks.lookup name)
    (hR : ∀ d, s.handOver? now (.hand name r) = some d → R (s.handedOver d) (s'.handedOver d)) :
    Matches R (s.step now (.hand name r)) (s'.step now (.hand name r)) := by
  refine Matches.withNamed (f := id) h (by rw [hs, Option.map_id_apply]) fun sink hsink => ⟨?_, ?_⟩
  · exact hR ⟨now, name, sink, r⟩ (by simp [handOver?, handed?, hsink])
  · obtain ⟨hevents, hpanicked, happended⟩ := reaction_seen hl hw ⟨now, name, sink, r⟩
    show (if (s'.reaction ⟨now, name, sink, r⟩).panicked then Answer.unwound else .done, _ ++ [] ++ _) =
      (if (s.reaction ⟨now, name, sink, r⟩).panicked then Answer.unwound else .done, _ ++ [] ++ _)
    rw [hpanicked]
    exact congrArg (Prod.mk _) (congrArg₂ (· ++ [] ++ ·) hevents happended)

end

end LogRelay.Session
