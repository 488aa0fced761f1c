import LogRelay.Proofs.Session.Mirroring

/-!
# Copies in the place of interfaces

A run through a copy of an interface comes to the same as the run through the interface itself, whatever the version of
the copy. Only its level may make a difference, to the clients that are asked whether a call is worth making: `judged` is
the run through the interface in which those calls are made that the clients of the copy let pass.
-/

namespace LogRelay.Session

variable {s s' : Session} {origin copy : String} {id : ReceiverId} {level : Level} {a : Alteration}

/-- What becomes of a step once its client has said whether it is worth making. -/
def judged? (s : Session) : Step → Option Step
  | .guarded client g =>
    if (s.clients.lookup client).any fun c => c.value.levelEnabled g.record.level g.record.topic then
      some (.send client g.record)
    else none
  | x => some x

/-- A run in which no client is asked first: those of another run, from `s` along `steps'`, are asked in their place. -/
def judged (s : Session) : List (String × Step) → List (String × Step) → List (String × Step)
  | (now, x) :: steps, (now', x') :: steps' =>
    ((s.judged? x).map fun y => (now, y)).toList ++ (s.step now' x').1.judged steps steps'
  | _, _ => []

theorem delivery?_guarded (s : Session) (client : String) (g : GuardedCall) :
    s.delivery? (.guarded client g) = (s.judged? (.guarded client g)).bind s.delivery? := by
  have hsend : s.delivery? (.send client g.record) = (s.clients.lookup client).bind fun c => c.value.send g.record := rfl
  show ((s.clients.lookup client).bind fun c => c.value.expand g) =
    (if (s.clients.lookup client).any fun c => c.value.levelEnabled g.record.level g.record.topic then
      some (Step.send client g.record) else none).bind s.delivery?
  rw [apply_ite (fun x => Option.bind x s.delivery?), Option.bind_some, Option.bind_none, hsend]
  cases s.clients.lookup client with
  | none => rfl
  | some c => exact c.value.expand_eq g

theorem judged?_of_not_checks {x : Step} (hx : ¬ Checks x) : s.judged? x = some x := by
  cases x with
  | guarded client g => exact absurd trivial hx
  | _ => rfl

theorem judged?_guarded (s : Session) (client : String) (g : GuardedCall) :
    s.judged? (.guarded client g) = some (.send client g.record) ∨ s.judged? (.guarded client g) = none := by
  show (if _ then some (Step.send client g.record) else none) = _ ∨
    (if _ then some (Step.send client g.record) else none) = none
  split
  · exact .inl rfl
  · exact .inr rfl

theorem Mirrors.step_judged (h : s.Mirrors s' id level a) (ht : s.Twinned origin copy id level a) (hk : a.Keeps)
    {x x' : Step} (now : String) (hr : x.Rerouted origin copy x') :
    (∃ y, s'.judged? x = some y ∧ y.named? = x.named? ∧ s'.handOver? now x' = s.handOver? now y ∧
      (s.step now y).1.Mirrors (s'.step now x').1 id level a) ∨
    s'.judged? x = none ∧ s'.handOver? now x' = none ∧ s.Mirrors (s'.step now x').1 id level a := by
  by_cases hx : Checks x
  · cases x with
    | guarded client g =>
      cases hr
      have hlogs : Logs (.guarded client g) := trivial
      have hd := s'.delivery?_guarded client g
      -- a call that the client lets pass is made as if it had not been asked
      rcases s'.judged?_guarded client g with hy | hy
      · rw [hy] at hd
        have hsend : s'.delivery? (.send client g.record) = s.delivery? (.send client g.record) :=
          h.delivery?_eq ht hk False.elim (.same _)
        exact .inl ⟨_, hy, rfl, h.logs now trivial hlogs (hd.trans hsend)⟩
      · rw [hy] at hd
        have hover : s'.handOver? now (.guarded client g) = none := by
          rw [handOver?, handed?_of_logs hlogs, hd]
          rfl
        rw [(step_of_not_handed hlogs hover).1]
        exact .inr ⟨hy, hover, h⟩
    | _ => exact hx.elim
  · exact .inl ⟨x, judged?_of_not_checks hx, rfl, h.step ht hk now (fun hc => absurd hc hx) hr⟩

/-- The steps `steps'` are `steps`, at the same times, with the copy in the place of the interface where they like. -/
def Rerouting (origin copy : String) (steps steps' : List (String × Step)) : Prop :=
  List.Forall₂ (fun e e' => e'.1 = e.1 ∧ e.2.Rerouted origin copy e'.2) steps steps'

variable {steps steps' : List (String × Step)}

theorem Mirrors.run_judged (h : s.Mirrors s' id level a) (ht : s.Twinned origin copy id level a) (hk : a.Keeps)
    (hr : Rerouting origin copy steps steps')
    (hn : ∀ e ∈ steps, e.2.named? ≠ some origin ∧ e.2.named? ≠ some copy) :
    s'.handOvers steps' = s.handOvers (s'.judged steps steps') ∧
      (s.run (s'.judged steps steps')).1.Mirrors (s'.run steps').1 id level a := by
  induction hr generalizing s s' with
  | nil => exact ⟨rfl, h⟩
  | @cons e e' steps steps' he _ ih =>
    obtain ⟨now, x⟩ := e
    obtain ⟨now', x'⟩ := e'
    obtain ⟨rfl, hr⟩ := he
    obtain ⟨hfresh, hn⟩ := List.forall_mem_cons.1 hn
    rcases h.step_judged ht hk now' hr with ⟨y, hy, hname, hover, hm⟩ | ⟨hy, hover, hm⟩
    · obtain ⟨hrest, hend⟩ := ih hm (ht.step now' (hname ▸ hfresh.1) (hname ▸ hfresh.2)) hn
      have hj : s'.judged ((now', x) :: steps) ((now', x') :: steps') =
          (now', y) :: (s'.step now' x').1.judged steps steps' := by
        rw [judged, hy]
        rfl
      rw [hj]
      refine ⟨?_, hend⟩
      show (s'.handOver? now' x').toList ++ _ = (s.handOver? now' y).toList ++ _
      rw [hover, hrest]
    · obtain ⟨hrest, hend⟩ := ih hm ht hn
      have hj : s'.judged ((now', x) :: steps) ((now', x') :: steps') =
          (s'.step now' x').1.judged steps steps' := by
        rw [judged, hy]
        rfl
      rw [hj]
      refine ⟨?_, hend⟩
      show (s'.handOver? now' x').toList ++ _ = _
      rw [hover, hrest]
      rfl

theorem Mirrors.run_of_level (h : s.Mirrors s' id level a) (ht : s.Twinned origin copy id level a) (hk : a.Keeps)
    (hl : Level.ofWord (a.apply (.own id level)).level = level) (hr : Rerouting origin copy steps steps')
    (hn : ∀ e ∈ steps, e.2.named? ≠ some origin ∧ e.2.named? ≠ some copy) :
    s'.handOvers steps' = s.handOvers steps ∧ (s.run steps).1.Mirrors (s'.run steps').1 id level a := by
  induction hr generalizing s s' with
  | nil => exact ⟨rfl, h⟩
  | @cons e e' steps steps' he _ ih =>
    obtain ⟨now, x⟩ := e
    obtain ⟨now', x'⟩ := e'
    obtain ⟨rfl, hr⟩ := he
    obtain ⟨hfresh, hn⟩ := List.forall_mem_cons.1 hn
    obtain ⟨hover, hm⟩ := h.step ht hk now' (fun _ => hl) hr
    obtain ⟨hrest, hend⟩ := ih hm (ht.step now' hfresh.1 hfresh.2) hn
    refine ⟨?_, hend⟩
    show (s'.handOver? now' x').toList ++ _ = (s.handOver? now' x).toList ++ _
    rw [hover, hrest]

/-- Along `steps'` everything is handed over as along `steps`, and sinks, files and histories are the same afterwards. -/
structure SameOutcome (s : Session) (steps steps' : List (String × Step)) : Prop where
  handOvers : s.handOvers steps' = s.handOvers steps
  sinks : (s.run steps').1.sinks = (s.run steps).1.sinks
  files : (s.run steps').1.files = (s.run steps).1.files
  history : ∀ name, (s.run steps').1.history name = (s.run steps).1.history name

theorem Mirrors.sameOutcome {steps'' : List (String × Step)} (hh : s.handOvers steps' = s.handOvers steps'')
    (hm : (s.run steps'').1.Mirrors (s.run steps').1 id level a) : s.SameOutcome steps'' steps' := by
  have hsinks : (s.run steps').1.sinks = (s.run steps'').1.sinks := by rw [hm.rest]
  exact ⟨hh, hsinks, by rw [hm.rest], fun name => by rw [history, hsinks, history]⟩

theorem Wired.twinned (h : s.Wired) {i : Interface} (hi : s.interfaces.lookup origin = some i)
    (hcopy : s.handle? copy = none) (hhost : s.hosts.lookup origin = none) (now : String) (a : Alteration) :
    ∃ level, i.handle = .own i.receiver level ∧
      (s.step now (.copyHandle copy origin a)).1.Twinned origin copy i.receiver level a := by
  obtain ⟨level, hl⟩ := h.own _ (mem_of_lookup hi)
  have hnone : s.interfaces.lookup copy = none ∧ s.hosts.lookup copy = none := by
    unfold handle? at hcopy
    split at hcopy
    · cases hcopy
    · next hn => exact ⟨hn, hcopy⟩
  have hne : copy ≠ origin := by
    rintro rfl
    rw [hnone.1] at hi
    cases hi
  have hs : (s.step now (.copyHandle copy origin a)).1 =
      { s with hosts := (copy, ⟨some origin, a.apply i.handle⟩) :: s.hosts } := by
    simp only [Session.step, withNamed, hi]
  refine ⟨level, hl, ?_⟩
  rw [hs]
  refine ⟨hne, fun j hj => ?_, hnone.1, ?_, List.forall_mem_cons.2 ⟨fun _ => rfl, fun e he hc => ?_⟩, ?_⟩
  · obtain rfl := Option.some.inj (hi.symm.trans hj)
    exact hl
  · rw [List.lookup_cons, beq_false_of_ne hne.symm]
    exact hhost
  · have hmem := List.lookup_eq_none_iff.1 hnone.2 e he
    simp [hc] at hmem
  · show List.lookup copy (_ :: _) = (s.interfaces.lookup origin).map _
    rw [List.lookup_cons, beq_self_eq_true, hi, Option.map_some, ← hl]

/-- A client is accepted where the helpers of a host find a table, and that is where there is a handle with a table that
is not too old. A helper brings one record to the sink of the interface if it finds its slot and a receiver too, and does
nothing otherwise. A run through a copy that keeps all this comes to the same as the run through the interface, but that
the clients of the copy are asked for their own level. -/
theorem copy_stands_for_interface (h : Rooted s) :
    (∀ on, ((∃ c, Client.connect on = .ok c) ↔ ∃ m, Handle.Offers on m) ∧
      ∀ m, Handle.usableMethods on = some m ↔ Handle.Offers on m) ∧
    (∀ now on slot c,
      (∀ d, (Route.helper slot).deliver on c = some d ↔
        Handle.Reaches on slot d.receiver ∧ d.record = (slot.taken c).record) ∧
      ((∀ id, ¬ Handle.Reaches on slot id) →
        s.deliver now ((Route.helper slot).deliver on c) = (s, .done, [])) ∧
      ∀ i ∈ s.interfaces, Handle.Reaches on slot i.2.receiver → ∃ sink, s.sinks.lookup i.2.sink = some sink ∧
        let d : HandOver := ⟨now, i.2.sink, sink, (slot.taken c).record⟩
        s.deliver now ((Route.helper slot).deliver on c) =
          (s.handedOver d, if s.escapes d then .aborted else .done, s.shown d)) ∧
    ∀ now origin copy i a, s.interfaces.lookup origin = some i → s.handle? copy = none → s.hosts.lookup origin = none →
      a.Keeps →
        let t := (s.step now (.copyHandle copy origin a)).1
        ∀ steps steps', Rerouting origin copy steps steps' →
          (∀ e ∈ steps, e.2.named? ≠ some origin ∧ e.2.named? ≠ some copy) →
            t.SameOutcome (t.judged steps steps') steps' ∧
              (Level.ofWord (a.apply i.handle).level = Level.ofWord i.handle.level → t.SameOutcome steps steps') := by
  have hw := h.anchored.toWired
  refine ⟨fun on => ⟨Client.exists_connect_iff, fun m => Handle.usableMethods_eq_some_iff⟩,
    fun now on slot c => ⟨fun d => Route.deliver_helper_eq_some_iff, fun hn => ?_, fun i hi hr => ?_⟩, ?_⟩
  · rw [Route.deliver_helper_eq_none hn]
    rfl
  · have hd : (Route.helper slot).deliver on c = some ⟨i.2.receiver, (slot.taken c).record⟩ :=
      Route.deliver_helper_eq_some_iff.2 ⟨hr, rfl⟩
    rw [hd]
    exact hw.deliver_eq hi now _
  · intro now origin copy i a hi hcopy hhost hk t steps steps' hr hn
    obtain ⟨level, hl, ht⟩ := hw.twinned hi hcopy hhost now a
    have hm := Mirrors.refl t i.receiver level a
    obtain ⟨hjudged, hend⟩ := hm.run_judged ht hk hr hn
    refine ⟨hend.sameOutcome hjudged, fun hsame => ?_⟩
    have hlevel : Level.ofWord (a.apply (.own i.receiver level)).level = level := by
      rw [hl] at hsame
      exact hsame.trans (Level.ofWord_word level)
    obtain ⟨hsame, hend⟩ := hm.run_of_level ht hk hlevel hr hn
    exact hend.sameOutcome hsame

/-- A copy of another version that asks for less, and a run through the interface `main`. -/
def quieter : Alteration := ⟨7, true, true, true, true, some 2⟩

def mainSteps : List (String × Step) :=
  [("", .ownClient "client" "main"), ("", .guarded "client" ⟨.level .info, ⟨"a.c", 1, "f"⟩, "unheard"⟩),
    ("", .guarded "client" ⟨.severity .warn none, ⟨"a.c", 2, "f"⟩, "heard"⟩),
    ("", .call (some "main") (.helper .logtv) ⟨3, none, none, 3, none, none, []⟩)]

/-- The client of the copy lets one call less pass. -/
theorem copy_stands_for_interface_quieter :
    let t := (single.step "" (.copyHandle "host" "main" quieter)).1
    let steps' : List (String × Step) :=
      [("", .connect "client" (some "host")), ("", .guarded "client" ⟨.level .info, ⟨"a.c", 1, "f"⟩, "unheard"⟩),
        ("", .guarded "client" ⟨.severity .warn none, ⟨"a.c", 2, "f"⟩, "heard"⟩),
        ("", .call (some "host") (.helper .logtv) ⟨3, none, none, 3, none, none, []⟩)]
    Rooted single ∧ single.interfaces.lookup "main" = some ⟨.own 1 .info, 1, "sink"⟩ ∧ quieter.Keeps ∧
      Rerouting "main" "host" mainSteps steps' ∧
      t.judged mainSteps steps' =
        [("", .ownClient "client" "main"), ("", .send "client" ⟨.warn, none, "a.c", 2, "f", "heard"⟩),
          ("", .call (some "main") (.helper .logtv) ⟨3, none, none, 3, none, none, []⟩)] ∧
      t.SameOutcome (t.judged mainSteps steps') steps' := by
  intro t steps'
  have h : Rooted single := rooted_initial.run _
  have hk : quieter.Keeps := ⟨rfl, rfl, rfl, rfl, by decide⟩
  have hr : Rerouting "main" "host" mainSteps steps' :=
    .cons ⟨rfl, .ownClient "client"⟩ (.cons ⟨rfl, .same _⟩ (.cons ⟨rfl, .same _⟩ (.cons ⟨rfl, .call _ _⟩ .nil)))
  have hn : ∀ e ∈ mainSteps, e.2.named? ≠ some "main" ∧ e.2.named? ≠ some "host" := by
    simp [mainSteps, Step.named?]
  exact ⟨h, lookup_single, hk, hr, rfl,
    ((copy_stands_for_interface h).2.2 "" "main" "host" _ quieter lookup_single rfl rfl hk _ _ hr hn).1⟩

end LogRelay.Session
