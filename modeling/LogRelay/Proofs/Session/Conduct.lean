import LogRelay.Proofs.Session.Histories

/-!
# What one leaves of the others

Making or ending an interface, or logging through one, changes little of a session. Whoever goes through something that
was made from another interface gets the same answers and sees the same happen (`Keeps.sameConduct`), as long as the sink
behind it is as it was.
-/

namespace LogRelay

theorem Files.watched_append (f : Files) (id : NodeId) (bs : Bytes) : (f.append id bs).watched = f.watched := by
  unfold append
  split <;> rfl

theorem Files.pathsOf_congr {f f' : Files} (hw : f'.watched = f.watched) (id : NodeId) :
    f'.pathsOf id = f.pathsOf id := by
  rw [pathsOf, hw, pathsOf]

/-- The files after a reaction to which it was all the same what they were. -/
def Reaction.filed (a : Reaction) (files : Files) : Files :=
  match a.written with
  | some (node, line) => files.append node (Utf8.ofText line)
  | none => files

theorem Reaction.watched_filed (a : Reaction) (files : Files) : (a.filed files).watched = files.watched := by
  unfold filed
  split
  · exact files.watched_append _ _
  · rfl

/-- Sinks do not look at the files. -/
theorem Sink.accept_files (sink : Sink) (logger : Logger) (files files' : Files) (now : String) (r : Record) :
    sink.accept logger files' now r =
      { sink.accept logger files now r with files := (sink.accept logger files now r).filed files' } := by
  unfold accept
  cases sink with
  | recorder k => rfl
  | silent => rfl
  | facade bound =>
    simp only
    split
    · split <;> rfl
    · rfl
  | file bound format node =>
    simp only
    split <;> rfl

namespace Session

variable {s s' : Session} {x : Step}

/-- The sink that a step brings a record to. -/
def sinkOf? (s : Session) (x : Step) : Option String := (s.handed? x).map Prod.fst

theorem sinkOf?_of_handOver {now : String} {d : HandOver} (h : s.handOver? now x = some d) :
    s.sinkOf? x = some d.name := by
  rw [sinkOf?, (lookup_of_handOver h).1, Option.map_some]

/-- In `s'` the step `x` brings the same record to the same sink as in `s`, answers the same and shows the same. -/
structure SameConduct (s s' : Session) (x : Step) : Prop where
  handed : s'.handed? x = s.handed? x
  seen : ∀ now, (s'.step now x).2 = (s.step now x).2

/-- What is from interfaces that are `kept` is in `s'` as it is in `s`. -/
structure Keeps (s s' : Session) (kept : Option String → Prop) : Prop where
  handle : ∀ on h, s.handle? on = some h → kept h.origin → s'.handle? on = some h
  client : ∀ name c, s.clients.lookup name = some c → kept c.origin → s'.clients.lookup name = some c
  interface : ∀ i ∈ s.interfaces, kept (some i.1) → s'.interfaceOf? i.2.receiver = s.interfaceOf? i.2.receiver
  logger : s'.logger = s.logger
  watched : s'.files.watched = s.files.watched

/-! ## Steps through what is kept -/

theorem reaction_congr (hl : s'.logger = s.logger) (h : HandOver) :
    s'.reaction h = { s.reaction h with files := (s.reaction h).filed s'.files } := by
  rw [reaction, reaction, hl]
  exact h.sink.accept_files s.logger s.files s'.files h.now h.record

theorem watched_reaction (s : Session) (h : HandOver) : (s.reaction h).files.watched = s.files.watched := by
  have hr := s.reaction_congr rfl h
  rw [hr]
  exact Reaction.watched_filed _ _

theorem reaction_seen (hl : s'.logger = s.logger) (hw : s'.files.watched = s.files.watched) (h : HandOver) :
    reactionEvents h.name (s'.reaction h) = reactionEvents h.name (s.reaction h) ∧
      (s'.reaction h).panicked = (s.reaction h).panicked ∧
      appendedEvents (s'.reaction h).files (s'.reaction h).written =
        appendedEvents (s.reaction h).files (s.reaction h).written := by
  have hr := reaction_congr hl h
  have hwritten : (s'.reaction h).written = (s.reaction h).written := by rw [hr]
  have hf : (s'.reaction h).files.watched = (s.reaction h).files.watched := by
    rw [watched_reaction, watched_reaction, hw]
  refine ⟨by rw [hr]; rfl, by rw [hr], ?_⟩
  rw [hwritten]
  unfold appendedEvents
  split
  · rfl
  · rw [Files.pathsOf_congr hf]

theorem shown_congr (hl : s'.logger = s.logger) (hw : s'.files.watched = s.files.watched) (h : HandOver) :
    s'.shown h = s.shown h ∧ s'.escapes h = s.escapes h := by
  obtain ⟨hevents, -, happended⟩ := reaction_seen hl hw h
  have hcontain : contain s'.logger h.record (s'.reaction h) = contain s.logger h.record (s.reaction h) := by
    rw [reaction_congr hl h, hl]
    rfl
  rw [shown, escapes, hevents, hcontain, happended]
  exact ⟨rfl, rfl⟩

/-- What a step that logs answers and shows. -/
theorem seen_of_logs (now : String) (hx : Logs x) {o : Derived Handle} (ho : s.through? x = some o) :
    (s.step now x).2 =
      match s.handOver? now x with
      | some h => (if s.escapes h then .aborted else .done, s.shown h)
      | none => (.done, []) := by
  have hd : s.step now x = s.deliver now (s.delivery? x) := by
    cases x with
    | call on route c =>
      cases on with
      | none => cases ho
      | some on =>
        have hh : s.handle? on = some o := ho
        simp [step, withHandle, delivery?, hh]
    | send client r =>
      obtain ⟨c, hc, -⟩ := Option.map_eq_some_iff.1 ho
      simp [step, withNamed, delivery?, hc]
    | guarded client g =>
      obtain ⟨c, hc, -⟩ := Option.map_eq_some_iff.1 ho
      simp [step, withNamed, delivery?, hc]
    | _ => exact hx.elim
  rw [hd, deliver, s.receive_delivery now hx]
  cases s.handOver? now x <;> rfl

variable {kept : Option String → Prop} {o : Derived Handle}

theorem Keeps.through? (hk : s.Keeps s' kept) (ho : s.through? x = some o) (hkept : kept o.origin) :
    s'.through? x = some o ∧ s'.delivery? x = s.delivery? x := by
  cases x with
  | connect name on =>
    cases on with
    | none => cases ho
    | some on => exact ⟨hk.handle on o ho hkept, rfl⟩
  | call on route c =>
    cases on with
    | none => cases ho
    | some on =>
      have hh : s.handle? on = some o := ho
      have hh' := hk.handle on o ho hkept
      simp [Session.through?, delivery?, hh, hh']
  | send name r =>
    obtain ⟨c, hc, rfl⟩ := Option.map_eq_some_iff.1 ho
    simp [Session.through?, delivery?, hc, hk.client name c hc hkept]
  | guarded name g =>
    obtain ⟨c, hc, rfl⟩ := Option.map_eq_some_iff.1 ho
    simp [Session.through?, delivery?, hc, hk.client name c hc hkept]
  | levelEnabled name level topic =>
    obtain ⟨c, hc, rfl⟩ := Option.map_eq_some_iff.1 ho
    simp [Session.through?, delivery?, hk.client name c hc hkept]
  | _ => cases ho

theorem Keeps.handed? (hk : s.Keeps s' kept) (h : s.Anchored) (ho : s.through? x = some o) (hkept : kept o.origin) :
    s'.handed? x = s.handed? x := by
  obtain ⟨ho', hd⟩ := hk.through? ho hkept
  rw [handed?_of_through ho, handed?_of_through ho', hd]
  cases hx : s.delivery? x with
  | none => rfl
  | some d =>
    obtain ⟨o', hoo, hr⟩ := through?_of_delivery hx
    obtain rfl := Option.some.inj (ho.symm.trans hoo)
    obtain ⟨i, hi, hf⟩ := h.of_through? ho
    have hsame := hk.interface i hi (hf.origin ▸ hkept)
    rw [← hf.receiver _ hr] at hsame
    rw [Option.bind_some, Option.bind_some, arrival?, hsame, arrival?]

/-- Who goes through what is kept, to a sink that is as it was, is treated the same. -/
theorem Keeps.sameConduct (hk : s.Keeps s' kept) (h : s.Anchored) (ho : s.through? x = some o) (hkept : kept o.origin)
    (hs : ∀ name, s.sinkOf? x = some name → s'.sinks.lookup name = s.sinks.lookup name) : s.SameConduct s' x := by
  have hh := hk.handed? h ho hkept
  have ho' := (hk.through? ho hkept).1
  refine ⟨hh, fun now => ?_⟩
  by_cases hx : Logs x
  · have hover : s'.handOver? now x = s.handOver? now x := by
      rw [handOver?, hh, handOver?]
      cases ha : s.handed? x with
      | none => rfl
      | some a => rw [Option.bind_some, Option.bind_some, hs a.1 (by simp [sinkOf?, ha])]
    rw [seen_of_logs now hx ho, seen_of_logs now hx ho', hover]
    cases s.handOver? now x with
    | none => rfl
    | some ho =>
      obtain ⟨hshown, hescapes⟩ := shown_congr hk.logger hk.watched ho
      simp only [hshown, hescapes]
  · cases x with
    | connect name on =>
      cases on with
      | none => cases ho
      | some on =>
        have hh : s.handle? on = some o := ho
        have hh' : s'.handle? on = some o := ho'
        simp only [step, withHandle, hh, hh', connectHandle]
        split
        · rfl
        · simp only [report, hk.logger]
          split <;> rfl
        · rfl
    | levelEnabled name level topic =>
      obtain ⟨c, hc, rfl⟩ := Option.map_eq_some_iff.1 ho
      simp [step, withNamed, hc, hk.client name c hc hkept]
    | call on route c => exact absurd trivial hx
    | send name r => exact absurd trivial hx
    | guarded name g => exact absurd trivial hx
    | _ => cases ho

/-! ## What steps keep -/

theorem lookup_filter {α : Type} {table : List (String × α)} {name : String} {a : α} (h : table.lookup name = some a)
    {p : String × α → Bool} (hp : p (name, a) = true) : (table.filter p).lookup name = some a := by
  induction table with
  | nil => cases h
  | cons e table ih =>
    rw [List.lookup_cons] at h
    by_cases hn : name = e.1
    · subst hn
      rw [beq_self_eq_true] at h
      obtain rfl := Option.some.inj h
      rw [List.filter_cons_of_pos hp, List.lookup_cons, beq_self_eq_true]
    · rw [beq_false_of_ne hn] at h
      by_cases he : p e = true
      · rw [List.filter_cons_of_pos he, List.lookup_cons, beq_false_of_ne hn]
        exact ih h
      · rw [List.filter_cons_of_neg he]
        exact ih h

theorem lookup_filter_eq_none {α : Type} {table : List (String × α)} {name : String} (h : table.lookup name = none)
    (p : String × α → Bool) : (table.filter p).lookup name = none := by
  rw [List.lookup_eq_none_iff] at h ⊢
  intro e he
  exact h e (List.mem_filter.1 he).1

theorem Keeps.refl (s : Session) (kept : Option String → Prop) : s.Keeps s kept :=
  ⟨fun _ _ hh _ => hh, fun _ _ hc _ => hc, fun _ _ _ => rfl, rfl, rfl⟩

/-- A new interface takes nothing from anybody: its receiver is new, and so is its name. -/
theorem Anchored.keeps_makeInterface (h : s.Anchored) {name sink : String} {level : Level}
    (hn : s.handle? name = none) (hq : Quiet s (.makeInterface name sink level) s') :
    s.Keeps s' (fun _ => True) ∧ s'.sinks = s.sinks := by
  cases hq with
  | nothing => exact ⟨.refl s _, rfl⟩
  | interface name sink level hs =>
    refine ⟨⟨fun on d hd _ => ?_, fun _ _ hc _ => hc, fun i hi _ => ?_, rfl, rfl⟩, rfl⟩
    · have hne : on ≠ name := by
        rintro rfl
        rw [hn] at hd
        cases hd
      rw [← hd]
      simp only [handle?, List.lookup_cons, beq_false_of_ne hne]
    · have hne : s.next ≠ i.2.receiver := (Nat.ne_of_lt (h.fresh i hi)).symm
      simp [interfaceOf?, List.find?_cons_of_neg, hne]

theorem Anchored.keeps_destroy (h : s.Anchored) {name : String} (hq : Quiet s (.destroy name) s') :
    s.Keeps s' (· ≠ some name) ∧ s'.sinks = s.sinks := by
  have hw := h.toWired.quiet hq
  cases hq with
  | nothing => exact ⟨.refl s _, rfl⟩
  | destroyed name =>
    refine ⟨⟨fun on d hd hk => ?_, fun on c hc hk => ?_, fun i hi hk => ?_, rfl, rfl⟩, rfl⟩
    · unfold handle? at hd ⊢
      split at hd
      · next i hi =>
        cases hd
        have hl : (s.destroy name).interfaces.lookup on = some i := lookup_filter hi (by simpa using hk)
        simp only [hl]
      · next hi =>
        have hl : (s.destroy name).interfaces.lookup on = none := lookup_filter_eq_none hi _
        simp only [hl]
        exact lookup_filter hd (by simpa using hk)
    · exact lookup_filter hc (by simpa using hk)
    · have hi' : i ∈ (s.destroy name).interfaces := List.mem_filter.2 ⟨hi, by simpa using hk⟩
      rw [h.interfaceOf?_eq hi, hw.interfaceOf?_eq hi']

theorem keeps_handedOver (s : Session) (h : HandOver) : s.Keeps (s.handedOver h) fun _ => True :=
  ⟨fun _ _ hh _ => hh, fun _ _ hc _ => hc, fun _ _ _ => rfl, rfl, s.watched_reaction h⟩

/-- Logging changes the sink that it comes to and no other. -/
theorem keeps_logging (s : Session) (now : String) {y : Step} (hy : Logs y) :
    s.Keeps (s.step now y).1 (fun _ => True) ∧
      ∀ name, s.sinkOf? y ≠ some name → (s.step now y).1.sinks.lookup name = s.sinks.lookup name := by
  cases hh : s.handOver? now y with
  | none =>
    rw [(step_of_not_handed hy hh).1]
    exact ⟨.refl s _, fun _ _ => rfl⟩
  | some h =>
    rw [step_of_handOver hh]
    refine ⟨s.keeps_handedOver h, fun name hn => ?_⟩
    have hne : name ≠ h.name := by
      rintro rfl
      exact hn (sinkOf?_of_handOver hh)
    rw [lookup_handedOver, if_neg hne]

end Session
end LogRelay
