import LogRelay.Proofs.Session.Parallel

/-!
# A session without one interface

A session that never had a certain interface has other numbers for the receivers made later, and is the same otherwise.
`without` takes from a session an interface and all that was made from it, and renumbers the receivers. As long as no
step is about the interface, the session without it goes the same way and shows the same (`step_without`), so neither
making an interface nor ending one is noticed by the others, however long they go on.
-/

namespace LogRelay

variable {ρ : ReceiverId → ReceiverId}

def Handle.renumbered (ρ : ReceiverId → ReceiverId) (h : Handle) : Handle := { h with receiver := h.receiver.map ρ }

def Interface.renumbered (ρ : ReceiverId → ReceiverId) (i : Interface) : Interface :=
  ⟨i.handle.renumbered ρ, ρ i.receiver, i.sink⟩

def Client.renumbered (ρ : ReceiverId → ReceiverId) (c : Client) : Client := ⟨c.handle.renumbered ρ, c.methods⟩

def Delivery.renumbered (ρ : ReceiverId → ReceiverId) (d : Delivery) : Delivery := ⟨ρ d.receiver, d.record⟩

def Derived.map {α β : Type} (f : α → β) (d : Derived α) : Derived β := ⟨d.origin, f d.value⟩

/-! ## Deliveries -/

theorem Slot.deliver_renumbered (slot : Slot) (receiver : Option ReceiverId) (c : Call) :
    slot.deliver (receiver.map ρ) c = (slot.deliver receiver c).map (.renumbered ρ) := by
  cases receiver <;> rfl

theorem Slot.bind_deliver_renumbered (slot? : Option Slot) (receiver : Option ReceiverId) (c : Call) :
    (slot?.bind fun slot => slot.deliver (receiver.map ρ) c) =
      (slot?.bind fun slot => slot.deliver receiver c).map (.renumbered ρ) := by
  cases slot? with
  | none => rfl
  | some slot => exact slot.deliver_renumbered receiver c

theorem Route.deliver_renumbered (route : Route) (h : Handle) (c : Call) :
    route.deliver (some (h.renumbered ρ)) c = (route.deliver (some h) c).map (.renumbered ρ) := by
  cases route with
  | direct slot => exact slot.deliver_renumbered h.receiver c
  | table slot =>
    show (h.methods.bind fun m => (m.slot? slot).bind fun slot => slot.deliver (h.receiver.map ρ) c) =
      (h.methods.bind fun m => (m.slot? slot).bind fun slot => slot.deliver h.receiver c).map _
    cases h.methods with
    | none => rfl
    | some m => exact Slot.bind_deliver_renumbered (m.slot? slot) h.receiver c
  | helper slot =>
    show ((Handle.usableMethods (some h)).bind fun m =>
        (m.slot? slot).bind fun slot => slot.deliver (h.receiver.map ρ) c) =
      ((Handle.usableMethods (some h)).bind fun m => (m.slot? slot).bind fun slot => slot.deliver h.receiver c).map _
    cases Handle.usableMethods (some h) with
    | none => rfl
    | some m => exact Slot.bind_deliver_renumbered (m.slot? slot) h.receiver c

namespace Client

theorem send_renumbered (c : Client) (r : Record) : (c.renumbered ρ).send r = (c.send r).map (.renumbered ρ) := by
  unfold send
  split
  · exact Slot.bind_deliver_renumbered (c.methods.slot? .log) c.handle.receiver _
  · exact Slot.bind_deliver_renumbered (c.methods.slot? .logt) c.handle.receiver _

theorem expand_renumbered (c : Client) (g : GuardedCall) :
    (c.renumbered ρ).expand g = (c.expand g).map (.renumbered ρ) := by
  rw [expand_eq, expand_eq, send_renumbered]
  show (if c.levelEnabled g.record.level g.record.topic then _ else _) = _
  split <;> rfl

theorem connect_renumbered (h : Handle) : connect (some (h.renumbered ρ)) = (connect (some h)).map (.renumbered ρ) := by
  obtain ⟨typeName, version, methods, receiver, level⟩ := h
  cases methods with
  | none => rfl
  | some m =>
    simp only [connect, Handle.renumbered]
    split <;> rfl

end Client

theorem Alteration.apply_renumbered (a : Alteration) (h : Handle) :
    a.apply (h.renumbered ρ) = (a.apply h).renumbered ρ := by
  unfold apply Handle.renumbered
  cases a.receiver <;> rfl

namespace Session

variable {s s' : Session} {name : String} {gap : ReceiverId → Prop} {x : Step}

/-- The session without an interface and without what was made from it, its receivers renumbered. -/
def without (s : Session) (name : String) (ρ : ReceiverId → ReceiverId) : Session :=
  { s with
    interfaces := (s.interfaces.filter fun e => e.1 ≠ name).map fun e => (e.1, e.2.renumbered ρ)
    hosts := (s.hosts.filter fun e => e.2.origin ≠ some name).map fun e => (e.1, e.2.map (.renumbered ρ))
    clients := (s.clients.filter fun e => e.2.origin ≠ some name).map fun e => (e.1, e.2.map (.renumbered ρ))
    next := ρ s.next }

/-- The session `s'` is `s` without an interface. -/
def Lacks (name : String) (ρ : ReceiverId → ReceiverId) (s s' : Session) : Prop := s' = s.without name ρ

theorem Lacks.sinks (h : Lacks name ρ s s') : s'.sinks = s.sinks := by
  rw [show s' = _ from h]
  rfl

/-- The interface that a step makes or ends or goes through, be it by something that was made from it. -/
def about? (s : Session) : Step → Option String
  | .makeInterface name _ _ => some name
  | .copyHandle _ interface _ => some interface
  | .ownClient _ interface => some interface
  | .destroy interface => some interface
  | x => (s.through? x).bind Derived.origin

/-- Receivers outside the gap can be renumbered without a clash, and so can all that are still to be made; only the
interface of this name has one in the gap. -/
structure Renumbers (s : Session) (name : String) (ρ : ReceiverId → ReceiverId) (gap : ReceiverId → Prop) : Prop where
  injective : ∀ id id', ¬ gap id → ¬ gap id' → ρ id = ρ id' → id = id'
  later : ∀ id, s.next ≤ id → ¬ gap id ∧ ρ (id + 1) = ρ id + 1
  live : ∀ e ∈ s.interfaces, e.1 ≠ name → ¬ gap e.2.receiver

/-! ## What is left -/

theorem lookup_map {α β : Type} (table : List (String × α)) (g : α → β) (name : String) :
    (table.map fun e => (e.1, g e.2)).lookup name = (table.lookup name).map g := by
  induction table with
  | nil => rfl
  | cons e table ih =>
    rw [List.map_cons, List.lookup_cons, List.lookup_cons, ih]
    split <;> rfl

theorem lookup_left {α β : Type} {table : List (String × α)} {name : String} {p : String × α → Bool} (g : α → β)
    (hp : ∀ a, table.lookup name = some a → p (name, a) = true) :
    ((table.filter p).map fun e => (e.1, g e.2)).lookup name = (table.lookup name).map g := by
  rw [lookup_map]
  cases hl : table.lookup name with
  | none => rw [lookup_filter_eq_none hl]
  | some a => rw [lookup_filter hl (hp a hl)]

theorem handle?_without {on : String} (h : ∀ o, s.handle? on = some o → o.origin ≠ some name) :
    (s.without name ρ).handle? on = (s.handle? on).map (.map (.renumbered ρ)) := by
  unfold handle? at h ⊢
  cases hi : s.interfaces.lookup on with
  | some i =>
    have hl : (s.without name ρ).interfaces.lookup on = some (i.renumbered ρ) := by
      refine (lookup_left _ fun _ _ => ?_).trans (by rw [hi]; rfl)
      simpa [hi] using h
    rw [hl]
    rfl
  | none =>
    have hl : (s.without name ρ).interfaces.lookup on = none :=
      (lookup_map _ _ on).trans (by rw [lookup_filter_eq_none hi]; rfl)
    rw [hi] at h
    rw [hl]
    exact lookup_left _ fun o ho => by simpa using h o ho

theorem client_without {client : String} (h : ∀ c, s.clients.lookup client = some c → c.origin ≠ some name) :
    (s.without name ρ).clients.lookup client = (s.clients.lookup client).map (.map (.renumbered ρ)) :=
  lookup_left _ fun c hc => by simpa using h c hc

theorem interface_without {on : String} (h : on ≠ name) :
    (s.without name ρ).interfaces.lookup on = (s.interfaces.lookup on).map (.renumbered ρ) :=
  lookup_left _ fun i _ => by simpa using h

theorem interfaceOf?_without (h : s.Wired) (hr : s.Renumbers name ρ gap) {i : String × Interface}
    (hi : i ∈ s.interfaces) (hn : i.1 ≠ name) :
    (s.without name ρ).interfaceOf? (ρ i.2.receiver) = some (i.2.renumbered ρ) := by
  have hmem : (i.1, i.2.renumbered ρ) ∈ (s.without name ρ).interfaces :=
    List.mem_map_of_mem (List.mem_filter.2 ⟨hi, by simpa using hn⟩)
  have hapart : (s.without name ρ).interfaces.Pairwise fun e e' => e.2.receiver ≠ e'.2.receiver := by
    refine List.pairwise_map.2 ((h.apart.filter _).imp_of_mem fun {e e'} he he' hne heq => hne ?_)
    obtain ⟨he, hen⟩ := List.mem_filter.1 he
    obtain ⟨he', hen'⟩ := List.mem_filter.1 he'
    exact hr.injective _ _ (hr.live e he (by simpa using hen)) (hr.live e' he' (by simpa using hen')) heq
  exact congrArg (Option.map Prod.snd)
    (find?_of_pairwise (f := fun e : String × Interface => e.2.receiver) hapart hmem)

/-! ## What is handed over -/

theorem origin_of_about? (hx : s.about? x ≠ some name) {o : Derived Handle} (ho : s.through? x = some o) :
    o.origin ≠ some name := by
  have hbind : s.about? x = (s.through? x).bind Derived.origin := by
    cases x with
    | makeInterface name' sink level => cases ho
    | copyHandle host interface a => cases ho
    | ownClient client interface => cases ho
    | destroy interface => cases ho
    | _ => rfl
  rwa [hbind, ho] at hx

theorem client_of_about? {client : String} (hx : s.about? x ≠ some name)
    (ht : s.through? x = (s.clients.lookup client).map fun c => ⟨c.origin, c.value.handle⟩) (c : Derived Client)
    (hc : s.clients.lookup client = some c) : c.origin ≠ some name := by
  rw [hc] at ht
  exact origin_of_about? hx ht

theorem through?_without (hx : s.about? x ≠ some name) :
    (s.without name ρ).through? x = (s.through? x).map (.map (.renumbered ρ)) := by
  have client (client : String) (hc : ∀ c, s.clients.lookup client = some c → c.origin ≠ some name) :
      ((s.without name ρ).clients.lookup client).map (fun c => (⟨c.origin, c.value.handle⟩ : Derived Handle)) =
        ((s.clients.lookup client).map fun c => ⟨c.origin, c.value.handle⟩).map (.map (.renumbered ρ)) := by
    rw [client_without hc, Option.map_map, Option.map_map]
    rfl
  cases x with
  | connect name' on =>
    cases on with
    | none => rfl
    | some on => exact handle?_without fun o ho => origin_of_about? hx ho
  | call on route c =>
    cases on with
    | none => rfl
    | some on => exact handle?_without fun o ho => origin_of_about? hx ho
  | send name' r => exact client name' (client_of_about? hx rfl)
  | guarded name' g => exact client name' (client_of_about? hx rfl)
  | levelEnabled name' level topic => exact client name' (client_of_about? hx rfl)
  | _ => rfl

theorem delivery?_without (hx : s.about? x ≠ some name) :
    (s.without name ρ).delivery? x = (s.delivery? x).map (.renumbered ρ) := by
  cases x with
  | call on route c =>
    cases on with
    | none => cases route <;> rfl
    | some on =>
      simp only [delivery?, handle?_without fun o ho => origin_of_about? (x := .call (some on) route c) hx ho]
      cases s.handle? on with
      | none => rfl
      | some o => exact route.deliver_renumbered o.value c
  | send client r =>
    simp only [delivery?, client_without (client_of_about? hx rfl)]
    cases s.clients.lookup client with
    | none => rfl
    | some c => exact c.value.send_renumbered r
  | guarded client g =>
    simp only [delivery?, client_without (client_of_about? hx rfl)]
    cases s.clients.lookup client with
    | none => rfl
    | some c => exact c.value.expand_renumbered g
  | _ => rfl

theorem handOver?_without (h : s.Anchored) (hr : s.Renumbers name ρ gap) (hx : s.about? x ≠ some name) (now : String) :
    (s.without name ρ).handOver? now x = s.handOver? now x := by
  have hhanded : (s.without name ρ).handed? x = s.handed? x := by
    cases hd : s.delivery? x with
    | none =>
      have hd' : (s.without name ρ).delivery? x = none := by rw [delivery?_without hx, hd]; rfl
      cases x with
      | hand sink r => rfl
      | _ => simp only [handed?, hd, hd']; rfl
    | some d =>
      have hd' : (s.without name ρ).delivery? x = some (d.renumbered ρ) := by rw [delivery?_without hx, hd]; rfl
      obtain ⟨o, ho, hreceiver⟩ := through?_of_delivery hd
      obtain ⟨i, hi, hf⟩ := h.of_through? ho
      have hn : i.1 ≠ name := fun he => origin_of_about? hx ho (he ▸ hf.origin)
      have ho' : (s.without name ρ).through? x = some (o.map (.renumbered ρ)) := by rw [through?_without hx, ho]; rfl
      have hid := hf.receiver _ hreceiver
      rw [handed?_of_through ho, handed?_of_through ho', hd, hd', Option.bind_some, Option.bind_some, arrival?, arrival?,
        hid, h.interfaceOf?_eq hi]
      show ((s.without name ρ).interfaceOf? (ρ d.receiver)).map _ = _
      rw [hid, interfaceOf?_without h.toWired hr hi hn]
      rfl
  rw [handOver?, hhanded, handOver?]
  rfl

/-! ## Steps -/

theorem Renumbers.step (hr : s.Renumbers name ρ gap) (now : String) (x : Step) :
    (s.step now x).1.Renumbers name ρ gap := by
  rcases s.step_cases now x with ⟨d, -, hs⟩ | ⟨-, hq⟩
  · rw [hs]
    exact ⟨hr.injective, hr.later, hr.live⟩
  · generalize (s.step now x).1 = s' at hq
    cases hq with
    | interface name' sink level hs =>
      refine ⟨hr.injective, fun id hid => hr.later id (Nat.le_of_succ_le hid), fun e he hn => ?_⟩
      rcases List.mem_cons.1 he with rfl | he
      · exact (hr.later s.next (Nat.le_refl _)).1
      · exact hr.live e he hn
    | destroyed name' => exact ⟨hr.injective, hr.later, fun e he => hr.live e (List.mem_filter.1 he).1⟩
    | _ => exact ⟨hr.injective, hr.later, hr.live⟩

theorem lacks_makeSink (s : Session) (name : String) (ρ : ReceiverId → ReceiverId) (sink : String)
    (request : SinkRequest) :
    Matches (Lacks name ρ) (s.makeSink sink request) ((s.without name ρ).makeSink sink request) := by
  have hadd (made : Except Fault (Sink × Files)) :
      Matches (Lacks name ρ) (s.addSink sink made) ((s.without name ρ).addSink sink made) := by
    cases made <;> exact ⟨rfl, rfl⟩
  cases request with
  | configured c => exact .report rfl rfl (hadd _)
  | environment env =>
    unfold makeSink
    simp only
    split
    · exact .report rfl rfl (hadd _)
    · exact ⟨rfl, rfl⟩
  | file path bound format => exact hadd _
  | _ => exact hadd (.ok (_, s.files))

/-- The receiver of a new interface belongs to no other. -/
theorem shared_new (h : s.Wired) (hr : s.Renumbers name ρ gap) (on : String) :
    (s.interfaces.any fun e => e.1 ≠ on && e.2.receiver = s.next) = false ∧
      ((s.without name ρ).interfaces.any fun e => e.1 ≠ on && e.2.receiver = ρ s.next) = false := by
  have hnew (e : String × Interface) (he : e ∈ s.interfaces) : e.2.receiver ≠ s.next := Nat.ne_of_lt (h.fresh e he)
  refine ⟨List.any_eq_false.2 fun e he => by simp [hnew e he], List.any_eq_false.2 fun e he => ?_⟩
  obtain ⟨e, hleft, rfl⟩ := List.mem_map.1 he
  obtain ⟨he, hn⟩ := List.mem_filter.1 hleft
  have hne : ρ e.2.receiver ≠ ρ s.next := fun heq =>
    hnew e he (hr.injective _ _ (hr.live e he (by simpa using hn)) (hr.later s.next (Nat.le_refl _)).1 heq)
  simp [Interface.renumbered, hne]

theorem lacks_makeInterface (h : s.Wired) (hr : s.Renumbers name ρ gap) {on : String} (hn : on ≠ name) (sink : String)
    (level : Level) :
    Matches (Lacks name ρ) (s.makeInterface on sink level) ((s.without name ρ).makeInterface on sink level) := by
  have hsinks : (s.without name ρ).sinks = s.sinks := rfl
  unfold makeInterface
  rw [hsinks]
  cases s.sinks.lookup sink with
  | none => exact ⟨rfl, rfl⟩
  | some k =>
    refine .report rfl rfl ⟨?_, ?_⟩
    · have hnext : (s.without name ρ).next + 1 = ρ (s.next + 1) := (hr.later s.next (Nat.le_refl _)).2.symm
      simp only [Lacks, hnext]
      simp [without, hn, Interface.renumbered, Handle.renumbered, Handle.own]
    · obtain ⟨hs, hs'⟩ := shared_new h hr on
      have hnext : (s.without name ρ).next = ρ s.next := rfl
      simpa [describe, Handle.own, hnext] using hs'.trans hs.symm

theorem lacks_addClient {origin : Option String} (ho : origin ≠ some name) (client : String) (c : Client) :
    Matches (Lacks name ρ) (s.addClient client origin c)
      ((s.without name ρ).addClient client origin (c.renumbered ρ)) := by
  refine ⟨?_, rfl⟩
  simp [Lacks, addClient, without, ho, Derived.map]

theorem lacks_connectHandle {origin : Option String} (ho : origin ≠ some name) (client : String) (handle : Handle) :
    Matches (Lacks name ρ) (s.connectHandle client origin (some handle))
      ((s.without name ρ).connectHandle client origin (some (handle.renumbered ρ))) := by
  unfold connectHandle
  rw [Client.connect_renumbered]
  cases Client.connect (some handle) with
  | ok c => exact lacks_addClient ho client c
  | error refusal =>
    cases refusal with
    | tooOld version => exact .report rfl rfl ⟨rfl, rfl⟩
    | noHandle => exact ⟨rfl, rfl⟩
    | noMethods => exact ⟨rfl, rfl⟩

theorem lacks_destroy (s : Session) (name : String) (ρ : ReceiverId → ReceiverId) (interface : String) :
    Lacks name ρ (s.destroy interface) ((s.without name ρ).destroy interface) := by
  simp [Lacks, destroy, without, List.filter_map, List.filter_filter, Function.comp_def, Derived.map, Bool.and_comm]

/-- Where no step is about the interface, the session without it goes the same way and shows the same. -/
theorem step_without (h : s.Anchored) (hr : s.Renumbers name ρ gap) (hx : s.about? x ≠ some name) (now : String) :
    Matches (Lacks name ρ) (s.step now x) ((s.without name ρ).step now x) := by
  have hlogs (hlog : Logs x) : Matches (Lacks name ρ) (s.step now x) ((s.without name ρ).step now x) :=
    matches_logs rfl rfl rfl hlog (by rw [through?_without hx, Option.isSome_map]) (handOver?_without h hr hx now)
      fun d _ => rfl
  cases x with
  | call on route c => exact hlogs trivial
  | send client r => exact hlogs trivial
  | guarded client g => exact hlogs trivial
  | makeSink sink request => exact s.lacks_makeSink name ρ sink request
  | makeInterface on sink level => exact lacks_makeInterface h.toWired hr (fun he => hx (congrArg some he)) sink level
  | copyHandle host interface a =>
    have hn : interface ≠ name := fun he => hx (congrArg some he)
    refine .withNamed rfl (interface_without hn) fun i hi => ⟨?_, rfl⟩
    simp [Lacks, without, hn, Derived.map, Interface.renumbered, Alteration.apply_renumbered]
  | destroy interface =>
    have hn : interface ≠ name := fun he => hx (congrArg some he)
    exact .withNamed rfl (interface_without hn) fun i _ => ⟨s.lacks_destroy name ρ interface, rfl⟩
  | ownClient client interface =>
    have hn : interface ≠ name := fun he => hx (congrArg some he)
    have ho : some interface ≠ some name := fun he => hn (Option.some.inj he)
    exact .withNamed rfl (interface_without hn) fun i _ => lacks_addClient ho client (.ofOwn i.handle)
  | connect client on =>
    cases on with
    | none => exact ⟨rfl, rfl⟩
    | some on =>
      have ho (o : Derived Handle) : s.handle? on = some o → o.origin ≠ some name := origin_of_about? hx
      simp only [step, withHandle, handle?_without ho]
      cases hh : s.handle? on with
      | none => exact ⟨rfl, rfl⟩
      | some o => exact lacks_connectHandle (ho o hh) client o.value
  | levelEnabled client level topic =>
    exact .withNamed rfl (client_without (client_of_about? hx rfl)) fun c _ => ⟨rfl, rfl⟩
  | hand sink r => exact matches_hand (R := Lacks name ρ) rfl rfl rfl rfl fun _ _ => rfl
  | flush sink => exact .withNamed (f := id) rfl (by rw [Option.map_id_apply]; rfl) fun _ _ => ⟨rfl, rfl⟩
  | replaceFile path content => exact ⟨rfl, rfl⟩
  | makeDirectory path => exact ⟨rfl, rfl⟩
  | refuse path number => exact ⟨rfl, rfl⟩
  | setBound bound => exact ⟨rfl, rfl⟩

theorem run_without (h : s.Anchored) (hr : s.Renumbers name ρ gap) {steps : List (String × Step)}
    (hs : s.Along (fun t x => t.about? x ≠ some name) steps) :
    Lacks name ρ (s.run steps).1 ((s.without name ρ).run steps).1 ∧
      ((s.without name ρ).run steps).2 = (s.run steps).2 := by
  obtain ⟨⟨-, -, hlacks⟩, hseen⟩ := matches_run
    (R := fun t t' => t.Anchored ∧ t.Renumbers name ρ gap ∧ Lacks name ρ t t')
    (fun t t' now x ⟨ha, hr, ht⟩ hx => by
      rw [ht]
      obtain ⟨hstep, hseen⟩ := step_without ha hr hx now
      exact ⟨⟨ha.step now x, hr.step now x, hstep⟩, hseen⟩)
    ⟨h, hr, rfl⟩ hs
  exact ⟨hlacks, hseen⟩

/-! ## Making and ending -/

/-- Numbers with `n` left out: those behind it move up. -/
def skip (n id : Nat) : Nat := if id ≤ n then id else id - 1

theorem skip_of_le {n id : Nat} (h : id ≤ n) : skip n id = id := if_pos h

theorem skip_succ {n id : Nat} (h : n ≤ id) : skip n (id + 1) = id := if_neg (Nat.not_le_of_lt (Nat.lt_succ_of_le h))

theorem skip_injective {n id id' : Nat} (h : id ≠ n) (h' : id' ≠ n) (he : skip n id = skip n id') : id = id' := by
  unfold skip at he
  split at he <;> split at he <;> omega

theorem renumbered_skip {h : Handle} {origin : Option String} {i : String × Interface} {n : ReceiverId}
    (hf : h.From origin i) (hi : i.2.receiver ≤ n) : h.renumbered (skip n) = h := by
  have hreceiver : h.receiver.map (skip n) = h.receiver := by
    cases hr : h.receiver with
    | none => rfl
    | some id => rw [Option.map_some, skip_of_le (hf.receiver id hr ▸ hi)]
  rw [Handle.renumbered, hreceiver]

/-- From a table of what was made from other interfaces nothing is taken, and the receivers stay. -/
theorem left_eq_self {α : Type} {n : ReceiverId} (h : ∀ i ∈ s.interfaces, i.1 ≠ name ∧ i.2.receiver ≤ n)
    {table : List (String × Derived α)} {f : α → Handle}
    (hfrom : ∀ e ∈ table, ∃ i ∈ s.interfaces, (f e.2.value).From e.2.origin i) {g : α → α}
    (hg : ∀ a, (f a).renumbered (skip n) = f a → g a = a) :
    ((table.filter fun e => e.2.origin ≠ some name).map fun e => (e.1, e.2.map g)) = table := by
  have hall : ∀ e ∈ table, decide (e.2.origin ≠ some name) = true := by
    intro e he
    obtain ⟨i, hi, hf⟩ := hfrom e he
    have hn := (h i hi).1
    simpa [hf.origin] using hn
  rw [List.filter_eq_self.2 hall]
  refine (List.map_congr_left fun e he => ?_).trans table.map_id
  obtain ⟨i, hi, hf⟩ := hfrom e he
  rw [Derived.map, hg _ (renumbered_skip hf (h i hi).2)]
  rfl

/-- With a new interface taken away again, the session is as it was. -/
theorem lacks_made (h : s.Anchored) (sink : String) (level : Level) (hn : s.handle? name = none) :
    let made : Session :=
      { s with interfaces := (name, ⟨.own s.next level, s.next, sink⟩) :: s.interfaces, next := s.next + 1 }
    made.Renumbers name (skip s.next) (· = s.next) ∧ Lacks name (skip s.next) made s := by
  intro made
  have hnone : s.interfaces.lookup name = none := by
    unfold handle? at hn
    split at hn
    · cases hn
    · next hi => exact hi
  have hne (i : String × Interface) (hi : i ∈ s.interfaces) : i.1 ≠ name := fun he => by
    simpa [he] using List.lookup_eq_none_iff.1 hnone i hi
  have hbelow (i : String × Interface) (hi : i ∈ s.interfaces) : i.2.receiver ≤ s.next := Nat.le_of_lt (h.fresh i hi)
  have hinterfaces : ((made.interfaces.filter fun e => e.1 ≠ name).map fun e =>
      (e.1, e.2.renumbered (skip s.next))) = s.interfaces := by
    rw [List.filter_cons_of_neg (by simp), List.filter_eq_self.2 fun e he => by simpa using hne e he]
    refine (List.map_congr_left fun e he => ?_).trans s.interfaces.map_id
    have hle := hbelow e he
    rw [Interface.renumbered, renumbered_skip (h.from_interface he) hle, skip_of_le hle]
    rfl
  have hothers (i : String × Interface) (hi : i ∈ s.interfaces) := And.intro (hne i hi) (hbelow i hi)
  have hhosts := left_eq_self hothers (f := id) h.hosts fun _ ha => ha
  have hclients := left_eq_self hothers (f := Client.handle) h.clients (g := .renumbered (skip s.next))
    fun c hc => by rw [Client.renumbered, hc]
  have hnext : skip s.next made.next = s.next := skip_succ (Nat.le_refl _)
  refine ⟨⟨fun id id' => skip_injective, fun id hid => ⟨Nat.ne_of_gt hid, ?_⟩, fun e he hn => ?_⟩, ?_⟩
  · obtain ⟨id, rfl⟩ := Nat.exists_eq_succ_of_ne_zero (Nat.ne_zero_of_lt hid)
    have hle : s.next ≤ id := Nat.le_of_succ_le_succ hid
    rw [skip_succ (Nat.le_succ_of_le hle), skip_succ hle]
  · rcases List.mem_cons.1 he with rfl | he
    · exact absurd rfl hn
    · exact Nat.ne_of_lt (h.fresh e he)
  · unfold Lacks without
    rw [hinterfaces, hnext]
    exact congrArg₂ (fun hosts clients => { s with hosts, clients }) hhosts.symm hclients.symm

theorem renumbers_id (s : Session) (name : String) : s.Renumbers name id fun _ => False :=
  ⟨fun _ _ _ _ he => he, fun _ _ => ⟨not_false, rfl⟩, fun _ _ _ => not_false⟩

theorem without_id (s : Session) (name : String) : s.without name id = s.destroy name := by
  have hhandle : Handle.renumbered id = id := by
    funext h
    rw [Handle.renumbered, Option.map_id_apply]
    rfl
  simp [without, destroy, Derived.map, Interface.renumbered, Client.renumbered, hhandle]

/-- Whatever happens later, nobody notices a new interface who is not about it. -/
theorem Anchored.unnoticed_made (h : s.Anchored) (now sink : String) (level : Level) (hn : s.handle? name = none) :
    let made := (s.step now (.makeInterface name sink level)).1
    ∀ steps, made.Along (fun t x => t.about? x ≠ some name) steps →
      (made.run steps).2 = (s.run steps).2 ∧ (made.run steps).1.sinks = (s.run steps).1.sinks := by
  intro made steps hs
  have hq : Quiet s (.makeInterface name sink level) made := quiet_step rfl
  have ha := h.quiet hq
  generalize made = t at hq ha hs
  cases hq with
  | nothing => exact ⟨rfl, rfl⟩
  | interface name sink level hsink =>
    obtain ⟨hr, hl⟩ := lacks_made h sink level hn
    obtain ⟨hlacks, hseen⟩ := run_without ha hr hs
    rw [← show s = _ from hl] at hlacks hseen
    exact ⟨hseen.symm, hlacks.sinks.symm⟩

/-- Whatever happens later, nobody notices the end of an interface who is not about it. -/
theorem Anchored.unnoticed_end (h : s.Anchored) (now : String) :
    let left := (s.step now (.destroy name)).1
    ∀ steps, s.Along (fun t x => t.about? x ≠ some name) steps →
      (left.run steps).2 = (s.run steps).2 ∧ (left.run steps).1.sinks = (s.run steps).1.sinks := by
  intro left steps hs
  have hq : Quiet s (.destroy name) left := quiet_step rfl
  generalize left = t at hq
  cases hq with
  | nothing => exact ⟨rfl, rfl⟩
  | destroyed name =>
    obtain ⟨hlacks, hseen⟩ := run_without h (s.renumbers_id name) hs
    rw [without_id] at hlacks hseen
    exact ⟨hseen, hlacks.sinks⟩

end Session
end LogRelay
