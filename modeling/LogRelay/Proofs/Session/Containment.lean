import LogRelay.Proofs.Session.Histories

/-!
# Panics of sinks

A panic of a sink ends where the delivery was received: the call returns, and one diagnostic says which record the sink
panicked on, as far as the bound of the logger lets it. Logging changes nothing that later logging goes by, so the calls
on which a sink panics can be left out of a run, and all others still bring what they brought (`brought_run`).
-/

namespace LogRelay

/-- A logger that panics on nothing. -/
def Logger.Calm (l : Logger) : Prop := ∀ e, l.panics e = false

/-- Whether the sink panics on the record, the logger being calm. -/
def HandOver.panics (h : HandOver) : Bool :=
  match h.sink with
  | .recorder k => k.panics (h.record :: k.received)
  | _ => false

/-- What comes to which sink at what time. -/
def HandOver.brought (h : HandOver) : String × String × Record := (h.now, h.name, h.record)

def Event.diagnostic? : Event → Option Diagnostic
  | .diagnostic d => some d
  | _ => none

namespace Session

variable {s s' : Session} {x : Step}

/-! ## One call -/

theorem panicked_reaction (hl : s.logger.Calm) (h : HandOver) : (s.reaction h).panicked = h.panics := by
  unfold reaction HandOver.panics Sink.accept
  cases h.sink with
  | recorder k => rfl
  | silent => rfl
  | facade bound =>
    simp only
    split
    · split
      · exact hl _
      · rfl
    · rfl
  | file bound format node =>
    simp only
    split <;> rfl

/-- A diagnostic about the record of a hand-over, if the logger shows errors at all. -/
def panicReport (s : Session) (h : HandOver) : List Diagnostic :=
  if h.panics ∧ s.logger.bound ≠ .off then [.panicked h.record.file h.record.line h.record.func] else []

theorem emit_panicked (hl : s.logger.Calm) (file : String) (line : UInt32) (func : String) :
    s.logger.emit (.panicked file line func) =
      (if s.logger.bound ≠ .off then [.panicked file line func] else [], false) := by
  unfold Logger.emit Logger.shows
  rw [hl]
  cases s.logger.bound <;> rfl

theorem contain_reaction (hl : s.logger.Calm) (h : HandOver) :
    contain s.logger h.record (s.reaction h) = ((s.panicReport h).map .diagnostic, false) := by
  unfold contain panicReport
  rw [panicked_reaction hl, emit_panicked hl]
  by_cases hp : h.panics = true
  · simp [hp]
  · simp [hp]

theorem diagnostics_shown (hl : s.logger.Calm) (h : HandOver) :
    (s.shown h).filterMap Event.diagnostic? = s.panicReport h := by
  have hreaction : (reactionEvents h.name (s.reaction h)).filterMap Event.diagnostic? = [] := by
    rw [reactionEvents, List.filterMap_append]
    cases (s.reaction h).noted <;> cases (s.reaction h).facade <;> cases (s.reaction h).panicked <;> rfl
  rw [shown, contain_reaction hl, List.filterMap_append, List.filterMap_append, hreaction,
    filterMap_appendedEvents fun _ _ => rfl, List.nil_append, List.append_nil, List.filterMap_map]
  exact List.filterMap_some

theorem escapes_eq_false (hl : s.logger.Calm) (h : HandOver) : s.escapes h = false := by
  rw [escapes, contain_reaction hl]

/-- The call `x` returns whatever its sink does. It delivers to its sink once, or does nothing, and there is a
diagnostic if the sink panics, an error whose text names the place of the record. -/
structure Contains (s : Session) (now : String) (x : Step) : Prop where
  returns : (s.step now x).2.1 = .done ∨ s.delivery? x = none ∧ ∃ name, (s.step now x).2.1 = .unknown name
  silent : s.delivery? x = none → (s.step now x).1 = s ∧ (s.step now x).2.2 = []
  once : ∀ d, s.delivery? x = some d → ∃ h, s.handOver? now x = some h ∧ h.record = d.record ∧
    (s.step now x).1 = s.handedOver h
  reported : ∀ h, s.handOver? now x = some h → (s.step now x).2.2.filterMap Event.diagnostic? = s.panicReport h ∧
    ∀ d ∈ s.panicReport h, d.severity = .error ∧ d.message =
      "log sink panicked handling " ++ h.record.file ++ ":" ++ toString h.record.line.toNat ++ " " ++ h.record.func

theorem Anchored.contains (ha : s.Anchored) (hl : s.logger.Calm) (hx : Logs x) (now : String) : s.Contains now x where
  returns := by
    rcases s.step_eq_deliver now hx with hs | ⟨hd, name, hs⟩
    · left
      rw [hs, deliver, s.receive_delivery now hx]
      cases s.handOver? now x with
      | none => rfl
      | some h => simp only [escapes_eq_false hl, Bool.false_eq_true, if_false]
    · right
      exact ⟨hd, name, by rw [hs]⟩
  silent hd := by
    refine step_of_not_handed hx ?_
    rw [handOver?, handed?_of_logs hx, hd]
    rfl
  once d hd := by
    obtain ⟨o, i, sink, -, -, -, -, hh⟩ := ha.arrives hd now
    exact ⟨_, hh, rfl, step_of_handOver hh⟩
  reported h hh := by
    refine ⟨by rw [events_of_handOver hx hh, diagnostics_shown hl], fun d hd => ?_⟩
    unfold panicReport at hd
    split at hd
    · rw [List.mem_singleton.1 hd]
      exact ⟨rfl, rfl⟩
    · cases hd

/-! ## Runs -/

/-- The sessions have the same interfaces, hosts and clients, and sinks of the same names. Logging keeps all these. -/
structure Alongside (s s' : Session) : Prop where
  interfaces : s'.interfaces = s.interfaces
  hosts : s'.hosts = s.hosts
  clients : s'.clients = s.clients
  logger : s'.logger = s.logger
  sinks : ∀ name, (s'.sinks.lookup name).isSome = (s.sinks.lookup name).isSome

theorem Alongside.refl (s : Session) : s.Alongside s := ⟨rfl, rfl, rfl, rfl, fun _ => rfl⟩

theorem alongside_handedOver (s : Session) (h : HandOver) : s.Alongside (s.handedOver h) := by
  refine ⟨rfl, rfl, rfl, rfl, fun name => ?_⟩
  rw [lookup_handedOver]
  split
  · exact Option.isSome_map
  · rfl

theorem Alongside.step (h : s.Alongside s') (now : String) (hx : Logs x) : s.Alongside (s'.step now x).1 := by
  cases hh : s'.handOver? now x with
  | none =>
    rw [(step_of_not_handed hx hh).1]
    exact h
  | some d =>
    have hd := s'.alongside_handedOver d
    rw [step_of_handOver hh]
    exact ⟨hd.interfaces.trans h.interfaces, hd.hosts.trans h.hosts, hd.clients.trans h.clients,
      hd.logger.trans h.logger, fun name => (hd.sinks name).trans (h.sinks name)⟩

theorem Alongside.run (h : s.Alongside s') {steps : List (String × Step)} (hs : ∀ e ∈ steps, Logs e.2) :
    s.Alongside (s'.run steps).1 := by
  induction steps generalizing s' with
  | nil => exact h
  | cons e steps ih =>
    obtain ⟨he, hs⟩ := List.forall_mem_cons.1 hs
    exact ih (h.step e.1 he) hs

theorem Alongside.delivery? (h : s.Alongside s') (x : Step) : s'.delivery? x = s.delivery? x := by
  have hhandle (name : String) : s'.handle? name = s.handle? name := by rw [handle?, h.interfaces, h.hosts, handle?]
  cases x with
  | call on route c =>
    cases on with
    | none => rfl
    | some name => simp only [Session.delivery?, hhandle]
  | send client r => simp only [Session.delivery?, h.clients]
  | guarded client g => simp only [Session.delivery?, h.clients]
  | _ => rfl

theorem Alongside.brought (h : s.Alongside s') (now : String) (hx : Logs x) :
    (s'.handOver? now x).map HandOver.brought = (s.handOver? now x).map HandOver.brought := by
  have hhanded : s'.handed? x = s.handed? x := by
    have harrival : s'.arrival? = s.arrival? := by
      funext d
      rw [arrival?, interfaceOf?, h.interfaces, arrival?, interfaceOf?]
    rw [handed?_of_logs hx, handed?_of_logs hx, h.delivery?, harrival]
  rw [handOver?, handOver?, hhanded]
  cases s.handed? x with
  | none => rfl
  | some a =>
    have hs := h.sinks a.1
    simp only [Option.bind_some, Option.map_map]
    cases hl : s.sinks.lookup a.1 <;> cases hl' : s'.sinks.lookup a.1 <;> simp_all [HandOver.brought]

variable {steps : List (String × Step)}

/-- What a run of calls brings is what each call would bring by itself. -/
theorem Alongside.brought_run (h : s.Alongside s') (hs : ∀ e ∈ steps, Logs e.2) :
    (s'.handOvers steps).map HandOver.brought =
      steps.filterMap fun e => (s.handOver? e.1 e.2).map HandOver.brought := by
  induction steps generalizing s' with
  | nil => rfl
  | cons e steps ih =>
    obtain ⟨he, hs⟩ := List.forall_mem_cons.1 hs
    show ((s'.handOver? e.1 e.2).toList ++ (s'.step e.1 e.2).1.handOvers steps).map HandOver.brought = _
    rw [List.map_append, ih (h.step e.1 he) hs, List.filterMap_cons, ← h.brought e.1 he]
    cases s'.handOver? e.1 e.2 <;> rfl

/-- A run without the calls that a sink panics on. -/
def withoutPanics (s : Session) : List (String × Step) → List (String × Step)
  | [] => []
  | (now, x) :: rest =>
    let kept := (s.step now x).1.withoutPanics rest
    if (s.handOver? now x).any HandOver.panics then kept else (now, x) :: kept

theorem withoutPanics_sublist (s : Session) (steps : List (String × Step)) : (s.withoutPanics steps).Sublist steps := by
  induction steps generalizing s with
  | nil => exact .slnil
  | cons e steps ih =>
    unfold withoutPanics
    simp only
    split
    · exact .cons e (ih _)
    · exact .cons_cons e (ih _)

theorem Alongside.brought_withoutPanics (h : s.Alongside s') (hs : ∀ e ∈ steps, Logs e.2) :
    ((s'.withoutPanics steps).filterMap fun e => (s.handOver? e.1 e.2).map HandOver.brought) =
      ((s'.handOvers steps).filter fun d => !d.panics).map HandOver.brought := by
  induction steps generalizing s' with
  | nil => rfl
  | cons e steps ih =>
    obtain ⟨now, x⟩ := e
    obtain ⟨hx, hs⟩ := List.forall_mem_cons.1 hs
    have hbrought := h.brought now hx
    have ih := ih (h.step now hx) hs
    unfold withoutPanics handOvers
    cases hh : s'.handOver? now x with
    | none =>
      rw [hh] at hbrought
      simpa [← hbrought] using ih
    | some d =>
      rw [hh] at hbrought
      by_cases hp : d.panics = true
      · simpa [hp] using ih
      · simpa [hp, ← hbrought] using ih

/-- A call returns to its caller whatever its sink does, and its sink gets it once. The one trace of a panic is a
diagnostic about the record, and none is seen where the bound of the logger is `off`. In a run without the calls that
panic, every other call brings the same record to the same sink. -/
theorem panics_are_contained (h : Rooted s) (hl : s.logger.Calm) (hs : ∀ e ∈ steps, Logs e.2) :
    (∀ before now x after, steps = before ++ (now, x) :: after →
      (s.run before).1.Contains now x ∧
        ((s.run (s.withoutPanics before)).1.handOver? now x).map HandOver.brought =
          ((s.run before).1.handOver? now x).map HandOver.brought) ∧
    (s.handOvers (s.withoutPanics steps)).map HandOver.brought =
      ((s.handOvers steps).filter fun d => !d.panics).map HandOver.brought := by
  have hkept {steps : List (String × Step)} (hs : ∀ e ∈ steps, Logs e.2) : ∀ e ∈ s.withoutPanics steps, Logs e.2 :=
    fun e he => hs e ((s.withoutPanics_sublist steps).subset he)
  refine ⟨fun before now x after he => ?_, ?_⟩
  · subst he
    obtain ⟨hbefore, hrest⟩ := List.forall_mem_append.1 hs
    have hx : Logs x := hrest (now, x) List.mem_cons_self
    have hrun := (Alongside.refl s).run hbefore
    have hcalm : (s.run before).1.logger.Calm := by
      rw [hrun.logger]
      exact hl
    refine ⟨(h.run before).anchored.contains hcalm hx now, ?_⟩
    rw [((Alongside.refl s).run (hkept hbefore)).brought now hx, hrun.brought now hx]
  · rw [(Alongside.refl s).brought_run (hkept hs), (Alongside.refl s).brought_withoutPanics hs]

/-- A sink that panics on every other record, with an interface over it and a client. -/
def unsteady : Session :=
  (run { initial with sinks := [("sink", .recorder ⟨fun received => received.length % 2 = 0, []⟩)] }
    [("", .makeInterface "main" "sink" .info), ("", .ownClient "client" "main")]).1

def unsteadySteps : List (String × Step) :=
  [("1", .call (some "main") (.table .log) ⟨3, none, none, 1, none, none, []⟩),
    ("2", .send "client" ⟨.warn, none, "a.c", 2, "f", ""⟩),
    ("3", .guarded "client" ⟨.level .debug, ⟨"a.c", 3, "f"⟩, ""⟩),
    ("4", .guarded "client" ⟨.severity .info none, ⟨"a.c", 4, "f"⟩, ""⟩)]

theorem panics_are_contained_unsteady :
    Rooted unsteady ∧ unsteady.logger.Calm ∧ (∀ e ∈ unsteadySteps, Logs e.2) ∧
      (unsteady.withoutPanics unsteadySteps).map Prod.fst = ["1", "3", "4"] ∧
      (unsteady.run (unsteadySteps.take 1)).1.Contains "2" (.send "client" ⟨.warn, none, "a.c", 2, "f", ""⟩) ∧
      (unsteady.handOvers (unsteady.withoutPanics unsteadySteps)).map HandOver.brought =
        ((unsteady.handOvers unsteadySteps).filter fun d => !d.panics).map HandOver.brought := by
  have h : Rooted unsteady := Rooted.run (.start rfl rfl rfl) _
  have hl : unsteady.logger.Calm := fun _ => rfl
  have hs : ∀ e ∈ unsteadySteps, Logs e.2 := by simp [unsteadySteps, Logs]
  obtain ⟨hcalls, hrun⟩ := panics_are_contained h hl hs
  exact ⟨h, hl, hs, rfl, (hcalls _ "2" _ _ rfl).1, hrun⟩

/-- A sink that panics, and a logger that shows no diagnostics. -/
def muted : Session :=
  (initial.run [("", .makeSink "sink" .panicking), ("", .makeInterface "main" "sink" .info), ("", .setBound .off)]).1

theorem panic_not_reported_muted :
    let x : Step := .call (some "main") (.table .log) ⟨3, none, some (Format.ascii "a.c"), 1, some (Format.ascii "f"),
      some (Format.ascii "boom"), []⟩
    Rooted muted ∧ muted.logger.Calm ∧ Logs x ∧ (∃ h, muted.handOver? "" x = some h ∧ h.panics = true) ∧
      (muted.step "" x).2.2.filterMap Event.diagnostic? = [] := by
  refine ⟨rooted_initial.run _, fun _ => rfl, trivial, ⟨_, rfl, rfl⟩, ?_⟩
  rfl

end Session
end LogRelay
