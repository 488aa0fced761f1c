import LogRelay.Session

/-!
# What one step can do

A step hands at most one record to one sink. `handOver?` says which record goes to which sink, and `handedOver` what that
makes of the session. A step that hands nothing over is quiet, and `Quiet` lists all that it can do: what steps preserve
is shown once for each of these (`step_cases`) and then holds of a run (`run_preserves`). `handOvers` are the records of
a whole run on their way into the sinks.
-/

namespace LogRelay

/-- A record on its way into a sink. -/
structure HandOver where
  now : String
  /-- The name of the sink. -/
  name : String
  /-- The sink as it is before. -/
  sink : Sink
  record : Record

/-- How a sink comes about: over the file that a path leads to, or without a file and with nothing received. -/
inductive Sink.Made (files : Files) : Sink → Files → Prop where
  | file (path : Bytes) (bound : Level) (format : LineFormat) {node : NodeId} {files' : Files}
      (h : files.openAppend path = .ok (node, files')) : Made files (file bound format node) files'
  | recorder (panics : List Record → Bool) : Made files (recorder ⟨panics, []⟩) files
  | silent : Made files silent files
  | facade (bound : Level) : Made files (facade bound) files

/-- What becomes of a sink that gets a record: a recorder keeps it, all others stay as they are. -/
def Sink.after (r : Record) : Sink → Sink
  | recorder k => recorder { k with received := r :: k.received }
  | sink => sink

theorem Sink.sink_accept (sink : Sink) (logger : Logger) (files : Files) (now : String) (r : Record) :
    (sink.accept logger files now r).sink = sink.after r := by
  unfold accept
  cases sink with
  | recorder k => rfl
  | silent => rfl
  | facade bound =>
    simp only
    split
    · split <;> rfl
    · rfl
  | file bound format node =>
    simp only
    split <;> rfl

namespace Session

variable {s s' : Session}

/-! ## Handing over -/

/-- The delivery that a step makes. -/
def delivery? (s : Session) : Step → Option Delivery
  | .call none route c => route.deliver none c
  | .call (some name) route c => (s.handle? name).bind fun h => route.deliver (some h.value) c
  | .send client r => (s.clients.lookup client).bind fun c => c.value.send r
  | .guarded client g => (s.clients.lookup client).bind fun c => c.value.expand g
  | _ => none

/-- Where a delivery arrives: the sink of the interface that its receiver belongs to, and the record it gets. -/
def arrival? (s : Session) (d : Delivery) : Option (String × Record) :=
  (s.interfaceOf? d.receiver).map fun i => (i.sink, d.record)

/-- The record that a step brings to a sink of a name. -/
def handed? (s : Session) : Step → Option (String × Record)
  | .hand name r => some (name, r)
  | x => (s.delivery? x).bind s.arrival?

/-- The record that a step hands to a sink, if it does. -/
def handOver? (s : Session) (now : String) (x : Step) : Option HandOver :=
  (s.handed? x).bind fun a => (s.sinks.lookup a.1).map fun sink => ⟨now, a.1, sink, a.2⟩

/-- The records that a run hands over, in order. -/
def handOvers (s : Session) : List (String × Step) → List HandOver
  | [] => []
  | (now, x) :: rest => (s.handOver? now x).toList ++ (s.step now x).1.handOvers rest

def reaction (s : Session) (h : HandOver) : Reaction := h.sink.accept s.logger s.files h.now h.record

/-- The session after a record was handed over: the sink and the files have changed, and nothing else. -/
def handedOver (s : Session) (h : HandOver) : Session :=
  { s.setSink h.name (s.reaction h).sink with files := (s.reaction h).files }

/-- What there is to see of a delivery that is handed over. -/
def shown (s : Session) (h : HandOver) : List Event :=
  reactionEvents h.name (s.reaction h) ++ (contain s.logger h.record (s.reaction h)).1 ++
    appendedEvents (s.reaction h).files (s.reaction h).written

theorem filterMap_appendedEvents {β : Type} {f : Event → Option β} (hf : ∀ path text, f (.appended path text) = none)
    (files : Files) (written : Option (NodeId × String)) : (appendedEvents files written).filterMap f = [] := by
  unfold appendedEvents
  split
  · rfl
  · rw [List.filterMap_map]
    exact List.filterMap_eq_nil_iff.2 fun _ _ => hf _ _

theorem filterMap_contain {β : Type} {f : Event → Option β} (hf : ∀ d, f (.diagnostic d) = none) (logger : Logger)
    (r : Record) (a : Reaction) : (contain logger r a).1.filterMap f = [] := by
  unfold contain
  split
  · rw [List.filterMap_map]
    exact List.filterMap_eq_nil_iff.2 fun _ _ => hf _
  · rfl

/-- Whether a delivery that is handed over ends the program. -/
def escapes (s : Session) (h : HandOver) : Bool := (contain s.logger h.record (s.reaction h)).2

theorem lookup_of_handOver {now : String} {x : Step} {h : HandOver} (hh : s.handOver? now x = some h) :
    s.handed? x = some (h.name, h.record) ∧ s.sinks.lookup h.name = some h.sink ∧ h.now = now := by
  obtain ⟨a, ha, hm⟩ := Option.bind_eq_some_iff.1 hh
  obtain ⟨sink, hs, rfl⟩ := Option.map_eq_some_iff.1 hm
  exact ⟨ha, hs, rfl⟩

/-- Whether a step logs through a handle or a client. -/
def Logs : Step → Prop
  | .call _ _ _ => True
  | .send _ _ => True
  | .guarded _ _ => True
  | _ => False

theorem step_eq_deliver (s : Session) (now : String) {x : Step} (hx : Logs x) :
    s.step now x = s.deliver now (s.delivery? x) ∨
      s.delivery? x = none ∧ ∃ name, s.step now x = (s, .unknown name, []) := by
  cases x with
  | call on route c =>
    cases on with
    | none => exact .inl rfl
    | some name =>
      cases h : s.handle? name with
      | none => exact .inr ⟨by simp [delivery?, h], name, by simp [step, withHandle, h]⟩
      | some d => exact .inl (by simp [step, withHandle, delivery?, h])
  | send client r =>
    cases h : s.clients.lookup client with
    | none => exact .inr ⟨by simp [delivery?, h], client, by simp [step, withNamed, h]⟩
    | some c => exact .inl (by simp [step, withNamed, delivery?, h])
  | guarded client g =>
    cases h : s.clients.lookup client with
    | none => exact .inr ⟨by simp [delivery?, h], client, by simp [step, withNamed, h]⟩
    | some c => exact .inl (by simp [step, withNamed, delivery?, h])
  | _ => exact hx.elim

/-- Logging is receiving what is delivered. -/
theorem step_logs (s : Session) (now : String) {x : Step} (hx : Logs x) :
    ((s.step now x).1, (s.step now x).2.2) =
      ((s.receive now (s.delivery? x)).1, (s.receive now (s.delivery? x)).2.1) := by
  rcases s.step_eq_deliver now hx with hs | ⟨hd, name, hs⟩
  · rw [hs]
    rfl
  · rw [hs, hd]
    rfl

theorem handed?_of_logs {x : Step} (hx : Logs x) : s.handed? x = (s.delivery? x).bind s.arrival? := by
  cases x with
  | hand name r => exact hx.elim
  | _ => rfl

/-- What logging hands over is what it delivers. -/
theorem delivery_of_handOver {now : String} {x : Step} {h : HandOver} (hx : Logs x) (hh : s.handOver? now x = some h) :
    ∃ d, s.delivery? x = some d ∧ h.record = d.record := by
  obtain ⟨ha, -, -⟩ := lookup_of_handOver hh
  rw [handed?_of_logs hx] at ha
  obtain ⟨d, hd, ha⟩ := Option.bind_eq_some_iff.1 ha
  obtain ⟨i, -, hi⟩ := Option.map_eq_some_iff.1 ha
  exact ⟨d, hd, (Prod.mk.inj hi).2.symm⟩

/-- A delivery that arrives is handed over, and what there is to see is the reaction of the sink; one that does not arrive
leaves no trace. -/
theorem receive_delivery (s : Session) (now : String) {x : Step} (hx : Logs x) :
    s.receive now (s.delivery? x) =
      match s.handOver? now x with
      | some h => (s.handedOver h, s.shown h, s.escapes h)
      | none => (s, [], false) := by
  rw [handOver?, handed?_of_logs hx]
  cases s.delivery? x with
  | none => rfl
  | some d =>
    cases hi : s.interfaceOf? d.receiver with
    | none => simp [receive, arrival?, hi]
    | some i =>
      cases hs : s.sinks.lookup i.sink with
      | none => simp [receive, arrival?, hi, hs]
      | some sink =>
        simp only [receive, arrival?, Option.bind_some, Option.map_some, hi, hs]
        rfl

/-- A step that hands a record over does nothing else. -/
theorem step_of_handOver {now : String} {x : Step} {h : HandOver} (hh : s.handOver? now x = some h) :
    (s.step now x).1 = s.handedOver h := by
  by_cases hx : Logs x
  · rw [(Prod.mk.inj (s.step_logs now hx)).1, s.receive_delivery now hx, hh]
  · obtain ⟨ha, hs, rfl⟩ := lookup_of_handOver hh
    cases x with
    | hand name r =>
      obtain ⟨rfl, rfl⟩ := Prod.mk.inj (Option.some.inj ha)
      show (s.withNamed s.sinks h.name _).1 = _
      simp only [withNamed, hs]
      rfl
    | _ => first | exact absurd trivial hx | cases ha

theorem events_of_handOver {now : String} {x : Step} {h : HandOver} (hx : Logs x) (hh : s.handOver? now x = some h) :
    (s.step now x).2.2 = s.shown h := by
  rw [(Prod.mk.inj (s.step_logs now hx)).2, s.receive_delivery now hx, hh]

/-- Logging that hands nothing over does nothing. -/
theorem step_of_not_handed {now : String} {x : Step} (hx : Logs x) (hh : s.handOver? now x = none) :
    (s.step now x).1 = s ∧ (s.step now x).2.2 = [] := by
  have hs := Prod.mk.inj (s.step_logs now hx)
  rw [s.receive_delivery now hx, hh] at hs
  exact hs

/-! ## Quiet steps -/

/-- What a step that hands nothing over can make of `s`. -/
inductive Quiet (s : Session) : Step → Session → Prop where
  | nothing {x : Step} : Quiet s x s
  | sink (name : String) (request : SinkRequest) {sink : Sink} {files : Files} (h : Sink.Made s.files sink files) :
      Quiet s (.makeSink name request) { s with sinks := (name, sink) :: s.sinks, files := files }
  | interface (name sink : String) (level : Level) (h : (s.sinks.lookup sink).isSome) :
      Quiet s (.makeInterface name sink level)
        { s with interfaces := (name, ⟨.own s.next level, s.next, sink⟩) :: s.interfaces, next := s.next + 1 }
  | host (name origin : String) {i : Interface} (a : Alteration) (h : s.interfaces.lookup origin = some i) :
      Quiet s (.copyHandle name origin a) { s with hosts := (name, ⟨some origin, a.apply i.handle⟩) :: s.hosts }
  | destroyed (name : String) : Quiet s (.destroy name) (s.destroy name)
  | ownClient (name origin : String) {i : Interface} (h : s.interfaces.lookup origin = some i) :
      Quiet s (.ownClient name origin) { s with clients := (name, ⟨some origin, .ofOwn i.handle⟩) :: s.clients }
  | client (name on : String) {h : Derived Handle} {c : Client} (hh : s.handle? on = some h)
      (hc : Client.connect (some h.value) = .ok c) :
      Quiet s (.connect name (some on)) { s with clients := (name, ⟨h.origin, c⟩) :: s.clients }
  | replaced (path content : Bytes) :
      Quiet s (.replaceFile path content) { s with files := s.files.replace path content }
  | directory (path : Bytes) : Quiet s (.makeDirectory path) { s with files := s.files.makeDirectory path }
  | refused (path : Bytes) (number : Option Int) :
      Quiet s (.refuse path number) { s with files := s.files.refuse path number }
  | logger (bound : Level) : Quiet s (.setBound bound) { s with logger := { s.logger with bound := bound } }

section
variable {x : Step}

theorem Quiet.report {d : Diagnostic} {next : Session × Answer × List Event} (h : Quiet s x next.1) :
    Quiet s x (s.report d next).1 := by
  unfold Session.report
  simp only
  split
  · exact .nothing
  · exact h

theorem Quiet.withNamed {α : Type} {table : List (String × α)} {name : String}
    {next : α → Session × Answer × List Event} (h : ∀ a, table.lookup name = some a → Quiet s x (next a).1) :
    Quiet s x (s.withNamed table name next).1 := by
  unfold Session.withNamed
  split
  · next a ha => exact h a ha
  · exact .nothing

end

theorem made_of_openFile {files files' : Files} {path : Bytes} {bound : Level} {format : LineFormat} {sink : Sink}
    (h : Sink.openFile files path bound format = .ok (sink, files')) : sink.Made files files' := by
  unfold Sink.openFile at h
  split at h
  · next hf =>
    cases h
    exact .file path bound format hf
  · cases h

theorem made_of_openSink {files files' : Files} {c : Config} {sink : Sink}
    (h : c.openSink files = .ok (sink, files')) : sink.Made files files' := by
  unfold Config.openSink at h
  split at h
  · cases h; exact .silent
  · cases h; exact .facade _
  · exact made_of_openFile h

theorem Quiet.addSink {name : String} {request : SinkRequest} {made : Except Fault (Sink × Files)}
    (h : ∀ sink files, made = .ok (sink, files) → sink.Made s.files files) :
    Quiet s (.makeSink name request) (s.addSink name made).1 := by
  cases made with
  | ok made => exact .sink name request (h _ _ rfl)
  | error f => exact .nothing

theorem Quiet.configure {name : String} {request : SinkRequest} {c : Config} :
    Quiet s (.makeSink name request) (s.configure name c).1 :=
  .report (.addSink fun _ _ h => made_of_openSink h)

theorem Quiet.makeSink {name : String} {request : SinkRequest} :
    Quiet s (.makeSink name request) (s.makeSink name request).1 := by
  cases request with
  | recorder => exact .sink name _ (.recorder _)
  | panicking => exact .sink name _ (.recorder _)
  | silent => exact .sink name _ .silent
  | facade bound => exact .sink name _ (.facade bound)
  | file path bound format => exact .addSink fun _ _ h => made_of_openFile h
  | configured c => exact .configure
  | environment env =>
    unfold Session.makeSink
    simp only
    split
    · exact .configure
    · exact .nothing

theorem Quiet.makeInterface {name sink : String} {level : Level} :
    Quiet s (.makeInterface name sink level) (s.makeInterface name sink level).1 := by
  unfold Session.makeInterface
  split
  · exact .nothing
  · next h => exact .report (.interface name sink level (by rw [h]; rfl))

theorem Quiet.connect {name : String} {on : Option String} :
    Quiet s (.connect name on) (s.withHandle on fun origin h => s.connectHandle name origin h).1 := by
  cases on with
  | none => exact .nothing
  | some on =>
    unfold withHandle
    simp only
    split
    · next h hh =>
      unfold connectHandle
      split
      · next c hc => exact .client name on hh hc
      · exact .report .nothing
      · exact .nothing
    · exact .nothing

theorem quiet_step {now : String} {x : Step} (hh : s.handOver? now x = none) : Quiet s x (s.step now x).1 := by
  by_cases hx : Logs x
  · rw [(step_of_not_handed hx hh).1]
    exact .nothing
  · cases x with
    | makeSink name request => exact .makeSink
    | makeInterface name sink level => exact .makeInterface
    | copyHandle name interface alteration => exact .withNamed fun i hi => .host name interface alteration hi
    | destroy interface => exact .withNamed fun _ _ => .destroyed interface
    | ownClient name interface => exact .withNamed fun i hi => .ownClient name interface hi
    | connect name on => exact .connect
    | levelEnabled client level topic => exact .withNamed fun _ _ => .nothing
    | hand name r =>
      have hs : s.sinks.lookup name = none := Option.map_eq_none_iff.1 hh
      show Quiet s _ (s.withNamed s.sinks name _).1
      simp only [Session.withNamed, hs]
      exact .nothing
    | flush sink => exact .withNamed fun _ _ => .nothing
    | replaceFile path content => exact .replaced path content
    | makeDirectory path => exact .directory path
    | refuse path number => exact .refused path number
    | setBound bound => exact .logger bound
    | call on route c => exact absurd trivial hx
    | send client r => exact absurd trivial hx
    | guarded client g => exact absurd trivial hx

/-! ## All steps -/

section
variable {R : Session → Session → Prop}

/-- What relates two sessions still does where it relates what they go on to. -/
theorem withNamed_rel {α : Type} {table : List (String × α)} {name : String}
    {next next' : α → Session × Answer × List Event} (h : R s s')
    (hn : ∀ a, table.lookup name = some a → R (next a).1 (next' a).1) :
    R (s.withNamed table name next).1 (s'.withNamed table name next').1 := by
  unfold Session.withNamed
  cases hl : table.lookup name with
  | none => exact h
  | some a => exact hn a hl

theorem report_rel {d : Diagnostic} {next next' : Session × Answer × List Event} (hl : s'.logger = s.logger)
    (h : R s s') (hn : R next.1 next'.1) : R (s.report d next).1 (s'.report d next').1 := by
  unfold Session.report
  rw [hl]
  simp only
  split
  · exact h
  · exact hn

end

theorem step_cases (s : Session) (now : String) (x : Step) :
    (∃ h, s.handOver? now x = some h ∧ (s.step now x).1 = s.handedOver h) ∨
      s.handOver? now x = none ∧ Quiet s x (s.step now x).1 := by
  cases hh : s.handOver? now x with
  | some h => exact .inl ⟨h, rfl, step_of_handOver hh⟩
  | none => exact .inr ⟨rfl, quiet_step hh⟩

/-- What every step preserves holds of a run. -/
theorem run_preserves {P : Session → Prop} (hstep : ∀ s now x, P s → P (s.step now x).1) (h : P s)
    (steps : List (String × Step)) : P (s.run steps).1 := by
  induction steps generalizing s with
  | nil => exact h
  | cons e steps ih => exact ih (hstep s e.1 e.2 h)

end Session
end LogRelay
