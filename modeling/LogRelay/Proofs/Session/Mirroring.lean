import LogRelay.Proofs.Session.Clients
import LogRelay.Proofs.Session.Conduct
import Mathlib.Data.List.Forall2

/-!
# A copy and its interface side by side

A program may go through a copy of a handle where it went through the interface that the handle is of. Two sessions are
followed side by side: `Twinned` says that the copy is there as long as its interface, `Mirrors` that the second session
has twins of the first one's clients and is the same otherwise. A step through the interface in the first session and
through the copy in the second one hands the same over (`Mirrors.step`). The level of the copy counts only where a client
is asked whether a call is worth making (`Checks`).
-/

namespace LogRelay

/-- The step `x'` is `x`, perhaps with the copy in the place of the interface that it was made from. -/
inductive Step.Rerouted (origin copy : String) : Step → Step → Prop where
  | same (x : Step) : Rerouted origin copy x x
  | call (route : Route) (c : Call) : Rerouted origin copy (.call (some origin) route c) (.call (some copy) route c)
  | ownClient (name : String) : Rerouted origin copy (.ownClient name origin) (.connect name (some copy))
  | connect (name : String) : Rerouted origin copy (.connect name (some origin)) (.connect name (some copy))

/-- The name of the interface or the host that a step is to make. -/
def Step.named? : Step → Option String
  | makeInterface name _ _ => some name
  | copyHandle name _ _ => some name
  | _ => none

/-- The client `c'` is `c`, or one of a copy where `c` is one of the interface. -/
inductive Client.Twin (id : ReceiverId) (level : Level) (a : Alteration) (c : Client) : Client → Prop where
  | same : Twin id level a c c
  | copied (hc : c = .ofOwn (.own id level)) : Twin id level a c ⟨a.apply (.own id level), a.table⟩

variable {id : ReceiverId} {level : Level} {a : Alteration} {c c' : Client}

theorem Client.Twin.send (ht : c.Twin id level a c') (hk : a.Keeps) (r : Record) : c'.send r = c.send r := by
  cases ht with
  | same => rfl
  | copied hc =>
    have hcopy : (a.apply (.own id level)).receiver = some id := by rw [hk.apply_own]
    rw [hc, send_own (c := .ofOwn (.own id level)) rfl rfl]
    exact send_of_slots hcopy ⟨a.mem_slots_table _, a.mem_slots_table _⟩ r

theorem Client.Twin.expand (ht : c.Twin id level a c') (hk : a.Keeps)
    (hl : Level.ofWord (a.apply (.own id level)).level = level) (g : GuardedCall) : c'.expand g = c.expand g := by
  have hsame : c'.level = c.level := by
    cases ht with
    | same => rfl
    | copied hc =>
      rw [hc]
      exact hl.trans (Level.ofWord_word level).symm
  rw [expand_eq, expand_eq, ht.send hk, levelEnabled, levelEnabled, hsame]

theorem Alteration.Keeps.connect (hk : a.Keeps) :
    Client.connect (some (a.apply (.own id level))) = .ok ⟨a.apply (.own id level), a.table⟩ :=
  Client.connect_eq_ok_iff.2 ⟨rfl, hk.offers⟩

theorem Client.connect_own : connect (some (.own id level)) = .ok (ofOwn (.own id level)) := rfl

namespace Session

variable {s s' : Session} {origin copy : String}

/-- As long as there is the interface `origin`, with the handle that it was made with, there is its copy. -/
structure Twinned (s : Session) (origin copy : String) (id : ReceiverId) (level : Level) (a : Alteration) : Prop where
  apart : copy ≠ origin
  handle : ∀ i, s.interfaces.lookup origin = some i → i.handle = .own id level
  noInterface : s.interfaces.lookup copy = none
  noHost : s.hosts.lookup origin = none
  copies : ∀ e ∈ s.hosts, e.1 = copy → e.2.origin = some origin
  host : s.hosts.lookup copy =
    (s.interfaces.lookup origin).map fun _ => ⟨some origin, a.apply (.own id level)⟩

/-! ## The copy is there as long as its interface -/

theorem Twinned.handle?_origin (h : s.Twinned origin copy id level a) :
    s.handle? origin = (s.interfaces.lookup origin).map fun _ => ⟨some origin, .own id level⟩ := by
  unfold handle?
  cases hi : s.interfaces.lookup origin with
  | none => exact h.noHost
  | some i => rw [Option.map_some, ← h.handle i hi]

theorem Twinned.handle?_copy (h : s.Twinned origin copy id level a) :
    s.handle? copy = (s.interfaces.lookup origin).map fun _ => ⟨some origin, a.apply (.own id level)⟩ := by
  unfold handle?
  rw [h.noInterface]
  exact h.host

/-- A filter that decides alike on all that has a name leaves what the name has, or nothing. -/
theorem lookup_filter_of_forall {α : Type} {table : List (String × α)} {name : String} {p : String × α → Bool} {b : Bool}
    (hp : ∀ e ∈ table, e.1 = name → p e = b) : (table.filter p).lookup name = if b then table.lookup name else none := by
  induction table with
  | nil => simp
  | cons e table ih =>
    have ih := ih fun e he => hp e (List.mem_cons_of_mem _ he)
    by_cases hn : name = e.1
    · have hb := hp e List.mem_cons_self hn.symm
      cases b with
      | true => rw [List.filter_cons_of_pos hb, List.lookup_cons, List.lookup_cons, beq_iff_eq.2 hn, if_pos rfl]
      | false => rw [List.filter_cons_of_neg (by simp [hb]), ih, if_neg Bool.false_ne_true, if_neg Bool.false_ne_true]
    · rw [List.lookup_cons, beq_false_of_ne hn]
      by_cases he : p e = true
      · rw [List.filter_cons_of_pos he, List.lookup_cons, beq_false_of_ne hn]
        exact ih
      · rw [List.filter_cons_of_neg he]
        exact ih

theorem Twinned.destroy (h : s.Twinned origin copy id level a) (name : String) :
    (s.destroy name).Twinned origin copy id level a := by
  -- the end of `origin` takes the copy along, and the end of another interface leaves both
  have hinterface : (s.destroy name).interfaces.lookup origin =
      if decide (origin ≠ name) then s.interfaces.lookup origin else none :=
    lookup_filter_of_forall fun e _ he => by rw [he]
  have hhost : (s.destroy name).hosts.lookup copy = if decide (origin ≠ name) then s.hosts.lookup copy else none :=
    lookup_filter_of_forall fun e he hc => by simp [h.copies e he hc]
  refine ⟨h.apart, fun i hi => ?_, lookup_filter_eq_none h.noInterface _, lookup_filter_eq_none h.noHost _,
    fun e he hc => h.copies e (List.mem_filter.1 he).1 hc, ?_⟩
  · rw [hinterface] at hi
    split at hi
    · exact h.handle i hi
    · cases hi
  · rw [hinterface, hhost]
    split
    · exact h.host
    · rfl

theorem Twinned.step (h : s.Twinned origin copy id level a) (now : String) {x : Step}
    (ho : x.named? ≠ some origin) (hc : x.named? ≠ some copy) : (s.step now x).1.Twinned origin copy id level a := by
  rcases s.step_cases now x with ⟨d, -, hs⟩ | ⟨-, hq⟩
  · rw [hs]
    exact ⟨h.apart, h.handle, h.noInterface, h.noHost, h.copies, h.host⟩
  · generalize (s.step now x).1 = s' at hq
    cases hq with
    | interface name sink level' hs =>
      have hno : origin ≠ name := fun he => ho (congrArg some he.symm)
      have hnc : copy ≠ name := fun he => hc (congrArg some he.symm)
      refine ⟨h.apart, ?_, ?_, h.noHost, h.copies, ?_⟩
      · rw [List.lookup_cons, beq_false_of_ne hno]
        exact h.handle
      · rw [List.lookup_cons, beq_false_of_ne hnc]
        exact h.noInterface
      · rw [List.lookup_cons, beq_false_of_ne hno]
        exact h.host
    | host name from' a' hi =>
      have hno : origin ≠ name := fun he => ho (congrArg some he.symm)
      have hnc : copy ≠ name := fun he => hc (congrArg some he.symm)
      refine ⟨h.apart, h.handle, h.noInterface, ?_, List.forall_mem_cons.2 ⟨fun he => absurd he.symm hnc, h.copies⟩, ?_⟩
      · rw [List.lookup_cons, beq_false_of_ne hno]
        exact h.noHost
      · rw [List.lookup_cons, beq_false_of_ne hnc]
        exact h.host
    | destroyed name => exact h.destroy name
    | _ => exact ⟨h.apart, h.handle, h.noInterface, h.noHost, h.copies, h.host⟩

/-! ## Side by side -/

/-- The session `s'` has a twin for each client of `s`, and is the same otherwise. -/
structure Mirrors (s s' : Session) (id : ReceiverId) (level : Level) (a : Alteration) : Prop where
  rest : s' = { s with clients := s'.clients }
  clients : List.Forall₂ (fun e e' => e'.1 = e.1 ∧ e'.2.origin = e.2.origin ∧ e.2.value.Twin id level a e'.2.value)
    s.clients s'.clients

theorem Mirrors.exists_clients (h : s.Mirrors s' id level a) :
    ∃ clients, s' = { s with clients := clients } ∧
      List.Forall₂ (fun e e' => e'.1 = e.1 ∧ e'.2.origin = e.2.origin ∧ e.2.value.Twin id level a e'.2.value)
        s.clients clients :=
  ⟨s'.clients, h.rest, h.clients⟩

theorem Mirrors.refl (s : Session) (id : ReceiverId) (level : Level) (a : Alteration) : s.Mirrors s id level a :=
  ⟨rfl, List.forall₂_same.2 fun _ _ => ⟨rfl, rfl, .same⟩⟩

theorem Mirrors.lookup (h : s.Mirrors s' id level a) (name : String) :
    Option.Rel (fun c c' => c.value.Twin id level a c'.value) (s.clients.lookup name) (s'.clients.lookup name) := by
  have hc := h.clients
  generalize s.clients = cs at hc
  generalize s'.clients = cs' at hc
  induction hc with
  | nil => exact .none
  | cons he _ ih =>
    obtain ⟨hn, -, ht⟩ := he
    rw [List.lookup_cons, List.lookup_cons, hn]
    split
    · exact .some ht
    · exact ih

theorem Mirrors.bind_client {β : Type} (h : s.Mirrors s' id level a) (name : String) {f f' : Derived Client → Option β}
    (hf : ∀ c c', c.value.Twin id level a c'.value → f' c' = f c) :
    (s'.clients.lookup name).bind f' = (s.clients.lookup name).bind f := by
  have hl := h.lookup name
  generalize s.clients.lookup name = c at hl
  generalize s'.clients.lookup name = c' at hl
  cases hl with
  | none => rfl
  | some ht => exact hf _ _ ht

theorem Mirrors.handle? (h : s.Mirrors s' id level a) (name : String) : s'.handle? name = s.handle? name := by
  rw [h.rest]
  rfl

theorem Mirrors.handedOver (h : s.Mirrors s' id level a) (d : HandOver) :
    (s.handedOver d).Mirrors (s'.handedOver d) id level a := by
  obtain ⟨clients, rfl, hc⟩ := h.exists_clients
  exact ⟨rfl, hc⟩

theorem Mirrors.logs (h : s.Mirrors s' id level a) {x x' : Step} (now : String) (hx : Logs x) (hx' : Logs x')
    (hd : s'.delivery? x' = s.delivery? x) :
    s'.handOver? now x' = s.handOver? now x ∧ (s.step now x).1.Mirrors (s'.step now x').1 id level a := by
  have hover : s'.handOver? now x' = s.handOver? now x := by
    rw [handOver?, handed?_of_logs hx', hd, handOver?, handed?_of_logs hx, h.rest]
    rfl
  refine ⟨hover, ?_⟩
  cases hh : s.handOver? now x with
  | some d =>
    rw [step_of_handOver hh, step_of_handOver (hover.trans hh)]
    exact h.handedOver d
  | none =>
    rw [(step_of_not_handed hx hh).1, (step_of_not_handed hx' (hover.trans hh)).1]
    exact h

theorem Mirrors.addClient (h : s.Mirrors s' id level a) (name : String) (from? : Option String)
    (ht : c.Twin id level a c') :
    (s.addClient name from? c).1.Mirrors (s'.addClient name from? c').1 id level a := by
  obtain ⟨clients, rfl, hc⟩ := h.exists_clients
  exact ⟨rfl, .cons ⟨rfl, rfl, ht⟩ hc⟩

theorem Mirrors.destroy (h : s.Mirrors s' id level a) (name : String) :
    (s.destroy name).Mirrors (s'.destroy name) id level a := by
  obtain ⟨clients, rfl, hc⟩ := h.exists_clients
  refine ⟨rfl, List.rel_filter ?_ hc⟩
  rintro e e' ⟨-, ho, -⟩
  simp only [ho]

theorem Mirrors.withNamed {α : Type} {table : List (String × α)} {name : String}
    {next next' : α → Session × Answer × List Event} (h : s.Mirrors s' id level a)
    (hn : ∀ e, table.lookup name = some e → (next e).1.Mirrors (next' e).1 id level a) :
    (s.withNamed table name next).1.Mirrors (s'.withNamed table name next').1 id level a :=
  withNamed_rel (R := fun s s' => s.Mirrors s' id level a) h hn

theorem Mirrors.report {d : Diagnostic} {next next' : Session × Answer × List Event} (h : s.Mirrors s' id level a)
    (hn : next.1.Mirrors next'.1 id level a) : (s.report d next).1.Mirrors (s'.report d next').1 id level a :=
  report_rel (R := fun s s' => s.Mirrors s' id level a) (by rw [h.rest]) h hn

theorem Mirrors.addSink (h : s.Mirrors s' id level a) (name : String) (made : Except Fault (Sink × Files)) :
    (s.addSink name made).1.Mirrors (s'.addSink name made).1 id level a := by
  obtain ⟨clients, rfl, hc⟩ := h.exists_clients
  cases made with
  | ok made => exact ⟨rfl, hc⟩
  | error f => exact h

theorem Mirrors.makeSink (h : s.Mirrors s' id level a) (name : String) (request : SinkRequest) :
    (s.makeSink name request).1.Mirrors (s'.makeSink name request).1 id level a := by
  have hfiles : s'.files = s.files := by rw [h.rest]
  unfold Session.makeSink
  rw [hfiles]
  cases request with
  | configured c =>
    simp only [configure, hfiles]
    exact h.report (h.addSink name _)
  | environment env =>
    simp only
    split
    · simp only [configure, hfiles]
      exact h.report (h.addSink name _)
    · exact h
  | _ => exact h.addSink name _

theorem Mirrors.connectHandle (h : s.Mirrors s' id level a) (name : String) (from? : Option String)
    (on : Option Handle) :
    (s.connectHandle name from? on).1.Mirrors (s'.connectHandle name from? on).1 id level a := by
  unfold Session.connectHandle
  split
  · exact h.addClient name from? .same
  · exact h.report h
  · exact h

theorem Mirrors.step_same (h : s.Mirrors s' id level a) (now : String) {x : Step} (hx : ¬ Logs x) :
    s'.handOver? now x = s.handOver? now x ∧ (s.step now x).1.Mirrors (s'.step now x).1 id level a := by
  obtain ⟨clients, rfl, hc⟩ := h.exists_clients
  cases x with
  | makeSink name request => exact ⟨rfl, h.makeSink name request⟩
  | makeInterface name sink level' =>
    refine ⟨rfl, ?_⟩
    show (s.makeInterface name sink level').1.Mirrors (Session.makeInterface _ name sink level').1 id level a
    unfold Session.makeInterface
    simp only
    split
    · exact h
    · exact h.report ⟨rfl, hc⟩
  | copyHandle name interface alteration => exact ⟨rfl, h.withNamed fun i _ => ⟨rfl, hc⟩⟩
  | destroy interface => exact ⟨rfl, h.withNamed fun _ _ => h.destroy interface⟩
  | ownClient name interface => exact ⟨rfl, h.withNamed fun i _ => h.addClient name _ .same⟩
  | connect name on =>
    refine ⟨rfl, ?_⟩
    cases on with
    | none => exact h
    | some on =>
      simp only [step, withHandle, h.handle?]
      cases s.handle? on with
      | none => exact h
      | some d => exact h.connectHandle name d.origin (some d.value)
  | levelEnabled client level' topic =>
    refine ⟨rfl, ?_⟩
    simp only [step, Session.withNamed]
    split <;> split <;> exact h
  | hand name r =>
    have hover : Session.handOver? { s with clients := clients } now (.hand name r) = s.handOver? now (.hand name r) :=
      rfl
    refine ⟨hover, ?_⟩
    rcases s.step_cases now (.hand name r) with ⟨d, hd, hs⟩ | ⟨hn, -⟩
    · rw [hs, step_of_handOver (hover.trans hd)]
      exact h.handedOver d
    · have hl : s.sinks.lookup name = none := Option.map_eq_none_iff.1 hn
      simp only [step, Session.withNamed, hl]
      exact h
  | flush sink => exact ⟨rfl, h.withNamed fun _ _ => h⟩
  | replaceFile path content => exact ⟨rfl, rfl, hc⟩
  | makeDirectory path => exact ⟨rfl, rfl, hc⟩
  | refuse path number => exact ⟨rfl, rfl, hc⟩
  | setBound bound => exact ⟨rfl, rfl, hc⟩
  | call on route c => exact absurd trivial hx
  | send client r => exact absurd trivial hx
  | guarded client g => exact absurd trivial hx

theorem Mirrors.connectCopy (h : s.Mirrors s' id level a) (ht : s.Twinned origin copy id level a) (hk : a.Keeps)
    (name now : String) :
    (s.step now (.ownClient name origin)).1.Mirrors (s'.step now (.connect name (some copy))).1 id level a := by
  simp only [step, Session.withNamed, withHandle, h.handle?, ht.handle?_copy]
  cases hi : s.interfaces.lookup origin with
  | none => exact h
  | some i =>
    simp only [Option.map_some, Session.connectHandle, hk.connect, ht.handle i hi]
    exact h.addClient name _ (.copied rfl)

theorem step_connect_own (ht : s.Twinned origin copy id level a) (name now : String) :
    (s.step now (.connect name (some origin))).1 = (s.step now (.ownClient name origin)).1 := by
  simp only [step, Session.withNamed, withHandle, ht.handle?_origin]
  cases hi : s.interfaces.lookup origin with
  | none => rfl
  | some i => simp only [Option.map_some, Session.connectHandle, Client.connect_own, ht.handle i hi]

theorem Mirrors.acts (h : s.Mirrors s' id level a) (ht : s.Twinned origin copy id level a) (hk : a.Keeps) {x x' : Step}
    (now : String) (hx : ¬ Logs x) (hr : x.Rerouted origin copy x') :
    s'.handOver? now x' = s.handOver? now x ∧ (s.step now x).1.Mirrors (s'.step now x').1 id level a := by
  cases hr with
  | same => exact h.step_same now hx
  | call route c => exact absurd trivial hx
  | ownClient name => exact ⟨rfl, h.connectCopy ht hk name now⟩
  | connect name =>
    rw [step_connect_own ht]
    exact ⟨rfl, h.connectCopy ht hk name now⟩

/-! ## Logging -/

/-- Whether a step asks its client first if the call is worth making. -/
def Checks : Step → Prop
  | .guarded _ _ => True
  | _ => False

theorem Mirrors.delivery?_eq (h : s.Mirrors s' id level a) (ht : s.Twinned origin copy id level a) (hk : a.Keeps)
    {x x' : Step} (hx : Checks x → Level.ofWord (a.apply (.own id level)).level = level)
    (hr : x.Rerouted origin copy x') : s'.delivery? x' = s.delivery? x := by
  cases hr with
  | same =>
    cases x with
    | call on route c =>
      cases on with
      | none => rfl
      | some on => simp only [delivery?, h.handle?]
    | send client r =>
      exact h.bind_client client fun c c' htwin => htwin.send hk r
    | guarded client g =>
      exact h.bind_client client fun c c' htwin => htwin.expand hk (hx trivial) g
    | _ => rfl
  | call route c =>
    simp only [delivery?, h.handle?, ht.handle?_origin, ht.handle?_copy]
    cases s.interfaces.lookup origin with
    | none => rfl
    | some i => exact hk.deliver_apply route c
  | ownClient name => rfl
  | connect name => rfl

theorem Mirrors.step (h : s.Mirrors s' id level a) (ht : s.Twinned origin copy id level a) (hk : a.Keeps)
    {x x' : Step} (now : String) (hx : Checks x → Level.ofWord (a.apply (.own id level)).level = level)
    (hr : x.Rerouted origin copy x') :
    s'.handOver? now x' = s.handOver? now x ∧ (s.step now x).1.Mirrors (s'.step now x').1 id level a := by
  by_cases hl : Logs x
  · have hl' : Logs x' := by
      cases hr with
      | same => exact hl
      | call route c => trivial
      | ownClient name => exact hl.elim
      | connect name => exact hl.elim
    exact h.logs now hl hl' (h.delivery?_eq ht hk hx hr)
  · exact h.acts ht hk now hl hr

end Session
end LogRelay
