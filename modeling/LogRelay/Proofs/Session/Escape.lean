import LogRelay.Proofs.Gate
import LogRelay.Proofs.Session.Containment

/-!
# Panics that get out

The panic of a sink is caught where the delivery was received, but then it is reported, and nothing catches the panic of
the logger on that report. A facade sink panics because its logger does, so one bad logger is enough for both
(`jumpy`). `HandOver.Fatal` says when it happens; a run of calls gets through if and only if nothing that is handed over
in it is fatal.
-/

namespace LogRelay

namespace HandOver

/-- The sink panics on the record: a recorder of itself, a facade sink if the logger panics on the event. -/
def PanicsUnder (l : Logger) (h : HandOver) : Prop :=
  match h.sink with
  | .recorder k => k.panics (h.record :: k.received) = true
  | .facade bound => h.record.Admitted bound ∧ ∃ e, h.record.facadeEvent? = some e ∧ l.panics (.facade e) = true
  | _ => False

/-- The sink panics on the record, and the logger gets the report and panics on it too. -/
structure Fatal (l : Logger) (h : HandOver) : Prop where
  sink : h.PanicsUnder l
  shown : l.bound ≠ .off
  report : l.panics (.diagnostic (.panicked h.record.file h.record.line h.record.func)) = true

end HandOver

/-- A logger that shows no errors, or that panics on no report of a panic. -/
def Logger.Reliable (l : Logger) : Prop :=
  l.bound = .off ∨ ∀ file line func, l.panics (.diagnostic (.panicked file line func)) = false

theorem Logger.Reliable.not_fatal {l : Logger} (hl : l.Reliable) (h : HandOver) : ¬ h.Fatal l := by
  intro hf
  rcases hl with hoff | hcalm
  · exact hf.shown hoff
  · exact Bool.false_ne_true ((hcalm _ _ _).symm.trans hf.report)

theorem Logger.emit_panicked_iff (l : Logger) (file : String) (line : UInt32) (func : String) :
    (l.emit (.panicked file line func)).2 = true ↔
      l.bound ≠ .off ∧ l.panics (.diagnostic (.panicked file line func)) = true := by
  have herror (bound : Level) : decide (Severity.error.level ≤ bound) = true ↔ bound ≠ .off := by
    cases bound <;> decide
  have hshows : l.shows (.panicked file line func) = true ↔ l.bound ≠ .off := herror l.bound
  unfold emit
  split
  · next hs => exact ⟨fun hp => ⟨hshows.1 hs, hp⟩, And.right⟩
  · next hs => exact ⟨fun hp => absurd hp Bool.false_ne_true, fun hp => absurd (hshows.2 hp.1) hs⟩

namespace Session

variable {s : Session} {x : Step} {steps : List (String × Step)}

/-! ## One call -/

theorem panicked_reaction_iff (s : Session) (h : HandOver) :
    (s.reaction h).panicked = true ↔ h.PanicsUnder s.logger := by
  unfold reaction HandOver.PanicsUnder Sink.accept
  cases h.sink with
  | recorder k => exact Iff.rfl
  | silent => exact ⟨fun hp => absurd hp Bool.false_ne_true, False.elim⟩
  | facade bound =>
    simp only [← h.record.isEnabled_iff]
    split
    · next hb =>
      split
      · next e he => simp [hb, he]
      · next he => simp [he, Sink.ignore]
    · next hb => simp [hb, Sink.ignore]
  | file bound format node =>
    simp only
    split <;> simp [Sink.ignore]

theorem escapes_iff (s : Session) (h : HandOver) : s.escapes h = true ↔ h.Fatal s.logger := by
  have hfatal : h.Fatal s.logger ↔ h.PanicsUnder s.logger ∧ s.logger.bound ≠ .off ∧
      s.logger.panics (.diagnostic (.panicked h.record.file h.record.line h.record.func)) = true :=
    ⟨fun hf => ⟨hf.sink, hf.shown, hf.report⟩, fun ⟨hs, hb, hr⟩ => ⟨hs, hb, hr⟩⟩
  rw [hfatal, ← panicked_reaction_iff, ← Logger.emit_panicked_iff]
  unfold escapes contain
  split
  · next hp => simp [hp]
  · next hp => simp [hp]

/-- What a call answers: it is not made where there is nothing of its name, and otherwise it returns, or ends the
program. -/
theorem answer_logs (s : Session) (now : String) (hx : Logs x) :
    (s.delivery? x = none ∧ ∃ name, (s.step now x).2.1 = .unknown name) ∨
      (s.step now x).2.1 = if (s.handOver? now x).any s.escapes then .aborted else .done := by
  rcases s.step_eq_deliver now hx with hs | ⟨hd, name, hs⟩
  · right
    rw [hs, deliver, s.receive_delivery now hx]
    cases s.handOver? now x <;> rfl
  · left
    exact ⟨hd, name, by rw [hs]⟩

theorem aborted_iff (s : Session) (now : String) (hx : Logs x) :
    (s.step now x).2.1 = .aborted ↔ ∃ h, s.handOver? now x = some h ∧ h.Fatal s.logger := by
  have hany : (s.handOver? now x).any s.escapes = true ↔ ∃ h, s.handOver? now x = some h ∧ h.Fatal s.logger := by
    rw [Option.any_eq_true]
    simp only [escapes_iff]
  rw [← hany]
  rcases s.answer_logs now hx with ⟨hd, name, ha⟩ | ha
  · have hnone : s.handOver? now x = none := by
      rw [handOver?, handed?_of_logs hx, hd]
      rfl
    simp [ha, hnone]
  · rw [ha]
    split
    · next he => simp [he]
    · next he => simp [he]

/-- The call `x` returns or ends the program, and it ends the program if what it hands over is fatal. Either way what it
hands over has got to the sink. -/
structure Ends (s : Session) (now : String) (x : Step) : Prop where
  aborts : (s.step now x).2.1 = .aborted ↔ ∃ h, s.handOver? now x = some h ∧ h.Fatal s.logger
  returns : (s.step now x).2.1 = .aborted ∨ (s.step now x).2.1 = .done ∨
    s.delivery? x = none ∧ ∃ name, (s.step now x).2.1 = .unknown name
  delivers : ∀ h, s.handOver? now x = some h → (s.step now x).1 = s.handedOver h

theorem ends (s : Session) (now : String) (hx : Logs x) : s.Ends now x where
  aborts := s.aborted_iff now hx
  returns := by
    rcases s.answer_logs now hx with hu | ha
    · exact .inr (.inr hu)
    · split at ha
      · exact .inl ha
      · exact .inr (.inl ha)
  delivers _ hh := step_of_handOver hh

/-! ## Runs -/

theorem logger_logs (s : Session) (now : String) (hx : Logs x) : (s.step now x).1.logger = s.logger :=
  ((Alongside.refl s).step now hx).logger

theorem no_abort_iff (hs : ∀ e ∈ steps, Logs e.2) :
    (∀ result ∈ (s.run steps).2, result.1 ≠ .aborted) ↔ ∀ h ∈ s.handOvers steps, ¬ h.Fatal s.logger := by
  induction steps generalizing s with
  | nil => simp [run, handOvers]
  | cons e steps ih =>
    obtain ⟨hx, hs⟩ := List.forall_mem_cons.1 hs
    have hfirst : (s.step e.1 e.2).2.1 ≠ .aborted ↔ ∀ h ∈ (s.handOver? e.1 e.2).toList, ¬ h.Fatal s.logger := by
      rw [Ne, s.aborted_iff e.1 hx]
      simp
    have hrest := ih (s := (s.step e.1 e.2).1) hs
    rw [s.logger_logs e.1 hx] at hrest
    show (∀ result ∈ (s.step e.1 e.2).2 :: ((s.step e.1 e.2).1.run steps).2, result.1 ≠ .aborted) ↔
      ∀ h ∈ (s.handOver? e.1 e.2).toList ++ (s.step e.1 e.2).1.handOvers steps, ¬ h.Fatal s.logger
    rw [List.forall_mem_cons, List.forall_mem_append, hfirst, hrest]

/-- Whatever the sinks do and whatever the logger does, each call of a run returns or ends the program, and it ends the
program if and only if its sink panics on the record and the logger panics on the report. A run gets to its end if and
only if nothing fatal is handed over in it, and it always does where the logger takes all reports of panics, or shows
none. -/
theorem calls_end_at_fatal_records (hs : ∀ e ∈ steps, Logs e.2) :
    (∀ before now x after, steps = before ++ (now, x) :: after → (s.run before).1.Ends now x) ∧
    ((∀ result ∈ (s.run steps).2, result.1 ≠ .aborted) ↔ ∀ h ∈ s.handOvers steps, ¬ h.Fatal s.logger) ∧
    (s.logger.Reliable → ∀ result ∈ (s.run steps).2, result.1 ≠ .aborted) := by
  refine ⟨fun before now x after he => ?_, no_abort_iff hs,
    fun hl => (no_abort_iff hs).2 fun h _ => hl.not_fatal h⟩
  exact (s.run before).1.ends now (hs (now, x) (by simp [he]))

/-- A logger that panics on all it gets, and a facade sink before it. -/
def jumpy : Session :=
  (run { initial with logger := ⟨.info, fun _ => true⟩ }
    [("", .makeSink "sink" (.facade .info)), ("", .makeInterface "main" "sink" .info)]).1

def jumpyCall (level : UInt32) : Step :=
  .call (some "main") (.table .log)
    ⟨level, none, some (Format.ascii "a.c"), 1, some (Format.ascii "f"), some (Format.ascii "boom"), []⟩

/-- A call that the bound keeps out returns, and one that it lets in does not. -/
theorem calls_end_at_fatal_records_jumpy :
    let steps := [("1", jumpyCall 4), ("2", jumpyCall 3)]
    (∀ e ∈ steps, Logs e.2) ∧ (jumpy.run (steps.take 1)).1.Ends "2" (jumpyCall 3) ∧
      (jumpy.run steps).2.map Prod.fst = [.done, .aborted] ∧
      ((∀ result ∈ (jumpy.run steps).2, result.1 ≠ .aborted) ↔
        ∀ h ∈ jumpy.handOvers steps, ¬ h.Fatal jumpy.logger) := by
  intro steps
  have hs : ∀ e ∈ steps, Logs e.2 := by simp [steps, Logs, jumpyCall]
  obtain ⟨hcalls, hrun, -⟩ := calls_end_at_fatal_records (s := jumpy) hs
  exact ⟨hs, hcalls _ "2" _ _ rfl, by decide, hrun⟩

/-- A call through an interface over a facade sink does not return to its caller: not every call does. -/
theorem call_does_not_return_jumpy :
    Rooted jumpy ∧ Logs (jumpyCall 3) ∧ (jumpy.step "" (jumpyCall 3)).2.1 = .aborted ∧
      ¬ ∀ (s : Session) (now : String) (x : Step), Rooted s → Logs x → (s.step now x).2.1 ≠ .aborted := by
  have h : Rooted jumpy := Rooted.run (.start rfl rfl rfl) _
  have ha : (jumpy.step "" (jumpyCall 3)).2.1 = .aborted := by decide
  exact ⟨h, trivial, ha, fun hall => hall jumpy "" (jumpyCall 3) h trivial ha⟩

end Session
end LogRelay
