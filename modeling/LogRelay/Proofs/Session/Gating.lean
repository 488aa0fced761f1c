import LogRelay.Proofs.Session.Anchored
import LogRelay.Proofs.Session.Clients
import LogRelay.Proofs.Session.FileGrowth
import LogRelay.Proofs.Sink.Line
import Mathlib.Data.List.Forall2

/-!
# Two gates in a row

A macro makes a call only for records that the client's own level admits; the sink then shows those that its bound admits.
The client looks at the topic of the program and the sink at the one that arrives, but both look only at what the way in
between keeps. So what is shown are the records that the lower of the two levels admits, and where the client's level is
not the lower one, asking changes nothing.
-/

namespace LogRelay

/-- The bound of a sink that shows what it admits. -/
def Sink.bound? : Sink → Option Level
  | .facade bound => some bound
  | .file bound _ _ => some bound
  | _ => none

/-- The facade event that the sink of a hand-over makes, if it does. -/
def HandOver.facade? (h : HandOver) : Option FacadeEvent :=
  match h.sink with
  | .facade bound => if h.record.Admitted bound then h.record.facadeEvent? else none
  | _ => none

def Event.facade? : Event → Option FacadeEvent
  | .facade e => some e
  | _ => none

theorem Sink.after_of_bound? {sink : Sink} {bound : Level} (hb : sink.bound? = some bound) (r : Record) :
    sink.after r = sink := by
  cases sink with
  | recorder k => cases hb
  | _ => rfl

theorem Record.admitted_passed {r r' : Record} (h : r.PassedAs r') (bound : Level) :
    r'.Admitted bound ↔ r.Admitted bound := by
  refine admitted_congr h.level ?_ bound
  rw [h.topic, Option.map_map]
  rfl

namespace Session

variable {s : Session}

/-! ## What a run of logging shows -/

/-- The events that facade sinks make in a run, in order. -/
def facadeEvents (s : Session) (steps : List (String × Step)) : List FacadeEvent :=
  (s.run steps).2.flatMap fun result => result.2.filterMap Event.facade?

theorem facade_reaction (s : Session) (h : HandOver) : (s.reaction h).facade = h.facade? := by
  show (h.sink.accept s.logger s.files h.now h.record).facade = _
  unfold Sink.accept HandOver.facade?
  cases h.sink with
  | recorder k => rfl
  | silent => rfl
  | facade bound =>
    simp only [← h.record.isEnabled_iff]
    split
    · split
      · next he => exact he.symm
      · next he => exact he.symm
    · rfl
  | file bound format node =>
    simp only
    split <;> rfl

theorem facade_reactionEvents (s : Session) (h : HandOver) :
    (reactionEvents h.name (s.reaction h)).filterMap Event.facade? = h.facade?.toList := by
  have hn (r : Record) :
      (if (s.reaction h).panicked then Event.panicked h.name r else .recorded h.name r).facade? = none := by
    split <;> rfl
  have hf (e : FacadeEvent) : (Event.facade e).facade? = some e := rfl
  rw [← s.facade_reaction]
  unfold reactionEvents
  cases (s.reaction h).noted <;> cases (s.reaction h).facade <;> simp [hn, hf]

theorem facade_shown (s : Session) (h : HandOver) : (s.shown h).filterMap Event.facade? = h.facade?.toList := by
  rw [shown, List.filterMap_append, List.filterMap_append, filterMap_contain fun _ => rfl,
    filterMap_appendedEvents fun _ _ => rfl, facade_reactionEvents]
  simp

theorem facadeEvents_cons (s : Session) (now : String) (x : Step) (steps : List (String × Step)) :
    s.facadeEvents ((now, x) :: steps) =
      (s.step now x).2.2.filterMap Event.facade? ++ (s.step now x).1.facadeEvents steps := by
  simp [facadeEvents, run]

theorem facadeEvents_run {steps : List (String × Step)} (hx : ∀ e ∈ steps, Logs e.2) :
    s.facadeEvents steps = (s.handOvers steps).filterMap HandOver.facade? := by
  induction steps generalizing s with
  | nil => rfl
  | cons e steps ih =>
    obtain ⟨he, hx⟩ := List.forall_mem_cons.1 hx
    rw [facadeEvents_cons, ih hx, handOvers, List.filterMap_append]
    congr 1
    cases hh : s.handOver? e.1 e.2 with
    | none => simp [(step_of_not_handed he hh).2]
    | some h =>
      rw [events_of_handOver he hh, facade_shown]
      cases hf : h.facade? <;> simp [hf]

theorem content?_handedOver (s : Session) (h : HandOver) (node : NodeId) :
    (s.handedOver h).files.content? node =
      (s.files.content? node).map (· ++ (h.line? node).toList.flatMap Utf8.ofText) := by
  rw [files_handedOver, HandOver.line?]
  cases hk : h.sink with
  | file bound format id =>
    by_cases ha : h.record.Admitted bound
    · by_cases hn : id = node
      · simp [ha, hn, Files.content?_append]
      · simp [ha, hn, Files.content?_append_of_ne (Ne.symm hn)]
    · simp [ha]
  | _ => simp

theorem content?_run {steps : List (String × Step)} (hx : ∀ e ∈ steps, Logs e.2) (node : NodeId) :
    (s.run steps).1.files.content? node =
      (s.files.content? node).map (· ++ (s.linesTo node steps).flatMap Utf8.ofText) := by
  induction steps generalizing s with
  | nil => simp [run, linesTo, handOvers]
  | cons e steps ih =>
    obtain ⟨he, hx⟩ := List.forall_mem_cons.1 hx
    have hstep : (s.step e.1 e.2).1.files.content? node =
        (s.files.content? node).map
          (· ++ ((s.handOver? e.1 e.2).bind (HandOver.line? node)).toList.flatMap Utf8.ofText) := by
      cases hh : s.handOver? e.1 e.2 with
      | none => simp [(step_of_not_handed he hh).1]
      | some h => rw [step_of_handOver hh, content?_handedOver, Option.bind_some]
    show ((s.step e.1 e.2).1.run steps).1.files.content? node = _
    rw [ih hx, hstep, linesTo_cons, List.flatMap_append, Option.map_map]
    congr 1
    funext old
    simp

/-! ## Records of one client -/

/-- What the client called `client` passes on gets to the sink of the interface `i`. -/
structure Feeds (s : Session) (client : String) (c : Client) (i : Interface) (sink : Sink) : Prop where
  client : ∃ origin, s.clients.lookup client = some ⟨origin, c⟩
  passes : ∀ r, c.send r = some ⟨i.receiver, (Client.call r).record⟩
  arrives : s.interfaceOf? i.receiver = some i
  sink : s.sinks.lookup i.sink = some sink

theorem Anchored.feeds (h : s.Anchored) {client : String} {cl : Derived Client}
    (hc : s.clients.lookup client = some cl) {name : String} {i : Interface} (hi : (name, i) ∈ s.interfaces)
    (hr : cl.value.handle.receiver = some i.receiver) {sink : Sink} (hs : s.sinks.lookup i.sink = some sink) :
    s.Feeds client cl.value i sink := by
  obtain ⟨e, -, hf⟩ := h.clients _ (mem_of_lookup hc)
  exact ⟨⟨cl.origin, hc⟩, Client.send_of_slots hr (hf.methods _ (h.table _ (mem_of_lookup hc))),
    h.interfaceOf?_eq hi, hs⟩

variable {client : String} {c : Client} {i : Interface} {sink : Sink}

theorem Feeds.handOver?_send (h : s.Feeds client c i sink) (now : String) (r : Record) :
    s.handOver? now (.send client r) = some ⟨now, i.sink, sink, (Client.call r).record⟩ := by
  obtain ⟨origin, hc⟩ := h.client
  simp [handOver?, handed?, delivery?, hc, h.passes, arrival?, h.arrives, h.sink]

theorem Feeds.handOver?_guarded (h : s.Feeds client c i sink) (now : String) (g : GuardedCall) :
    s.handOver? now (.guarded client g) =
      if g.record.Admitted c.level then some ⟨now, i.sink, sink, (Client.call g.record).record⟩ else none := by
  obtain ⟨origin, hc⟩ := h.client
  by_cases ha : g.record.Admitted c.level
  · have hg := (c.levelEnabled_iff g.record).2 ha
    simp [handOver?, handed?, delivery?, hc, c.expand_eq g, hg, ha, h.passes, arrival?, h.arrives, h.sink]
  · have hg : ¬ c.levelEnabled g.record.level g.record.topic = true := fun hg => ha ((c.levelEnabled_iff g.record).1 hg)
    simp [handOver?, handed?, delivery?, hc, c.expand_eq g, hg, ha]

/-- A sink with a bound stays as it is, so a client goes on getting through to it. -/
theorem Feeds.handedOver (h : s.Feeds client c i sink) {bound : Level} (hb : sink.bound? = some bound) (now : String)
    (r : Record) : (s.handedOver ⟨now, i.sink, sink, r⟩).Feeds client c i sink := by
  refine ⟨h.client, h.passes, h.arrives, ?_⟩
  rw [lookup_handedOver, if_pos rfl, h.sink, Option.map_some, Sink.after_of_bound? hb]

section
variable {α : Type} (step : α → Step) (record : α → Record) (gate : α → Bool)

theorem Feeds.handOvers_eq (h : s.Feeds client c i sink) {bound : Level} (hb : sink.bound? = some bound)
    (hl : ∀ a, Logs (step a))
    (hg : ∀ {s : Session}, s.Feeds client c i sink → ∀ now a, s.handOver? now (step a) =
      if gate a then some ⟨now, i.sink, sink, (Client.call (record a)).record⟩ else none)
    (log : List (String × α)) :
    s.handOvers (log.map fun e => (e.1, step e.2)) =
      (log.filter fun e => gate e.2).map fun e => ⟨e.1, i.sink, sink, (Client.call (record e.2)).record⟩ := by
  induction log generalizing s with
  | nil => rfl
  | cons e log ih =>
    have hh := hg h e.1 e.2
    rw [List.map_cons, handOvers, List.filter_cons]
    by_cases ha : gate e.2 = true
    · rw [if_pos ha] at hh
      rw [hh, step_of_handOver hh, ih (h.handedOver hb _ _), if_pos ha]
      rfl
    · rw [if_neg ha] at hh
      rw [hh, (step_of_not_handed (hl e.2) hh).1, ih h, if_neg ha]
      rfl

end

/-! ## What the sink puts out -/

/-- In a run the sink `name` puts out the records `shown`, each at its time: to its file one line that shows each of them
and nothing else, or one facade event that tells of each of them and no other. -/
structure PutsOut (s : Session) (name : String) (steps : List (String × Step)) (shown : List (String × Record)) :
    Prop where
  file : ∀ bound format node old, s.sinks.lookup name = some (.file bound format node) →
    s.files.content? node = some old → ∃ lines : List Bytes,
      List.Forall₂ (fun e line => format.Shows e.2 e.1 line) shown lines ∧
      (s.run steps).1.files.content? node = some (old ++ lines.flatten)
  facade : ∀ bound, s.sinks.lookup name = some (.facade bound) →
    List.Forall₂ (fun e event => FacadeEvent.Tells event e.2) shown (s.facadeEvents steps)

theorem facadeEvent?_of_admitted {r : Record} {bound : Level} (h : r.Admitted bound) : r.facadeEvent?.isSome := by
  rw [Record.facadeEvent?, Option.isSome_map]
  cases hl : r.level with
  | off => exact absurd hl h.on
  | _ => rfl

theorem map_some_filterMap {α β : Type} {f : α → Option β} {l : List α} (h : ∀ a ∈ l, (f a).isSome) :
    (l.filterMap f).map some = l.map f := by
  induction l with
  | nil => rfl
  | cons a l ih =>
    obtain ⟨ha, h⟩ := List.forall_mem_cons.1 h
    obtain ⟨b, hb⟩ := Option.isSome_iff_exists.1 ha
    simp [hb, ih h]

theorem forall₂_tells_filterMap {shown : List (String × Record)} (h : ∀ e ∈ shown, e.2.facadeEvent?.isSome) :
    List.Forall₂ (fun e event => FacadeEvent.Tells event e.2) shown (shown.filterMap fun e => e.2.facadeEvent?) := by
  induction shown with
  | nil => exact .nil
  | cons e shown ih =>
    obtain ⟨he, h⟩ := List.forall_mem_cons.1 h
    obtain ⟨event, hv⟩ := Option.isSome_iff_exists.1 he
    rw [List.filterMap_cons, hv]
    exact .cons (Record.tells_facadeEvent hv) (ih h)

/-- Of the records that are handed to a sink with a bound, the bound decides. -/
theorem putsOut_of_handOvers {name : String} {steps : List (String × Step)} {sent : List (String × Record)}
    {bound : Level} (hx : ∀ e ∈ steps, Logs e.2) (hs : s.sinks.lookup name = some sink) (hb : sink.bound? = some bound)
    (ho : s.handOvers steps = sent.map fun e => ⟨e.1, name, sink, e.2⟩) :
    s.PutsOut name steps (sent.filter fun e => e.2.Admitted bound) := by
  refine ⟨fun bound' format node old hk hc => ?_, fun bound' hk => ?_⟩
  · obtain rfl := Option.some.inj (hs.symm.trans hk)
    obtain rfl := Option.some.inj hb
    have hl : s.linesTo node steps =
        (sent.filter fun e => e.2.Admitted bound').map fun e => format.line e.2 e.1 := by
      rw [linesTo, ho, List.filterMap_map, ← List.filterMap_eq_map, List.filterMap_filter]
      simp [Function.comp_def, HandOver.line?]
    refine ⟨(s.linesTo node steps).map Utf8.ofText, ?_, ?_⟩
    · rw [hl, List.map_map, List.forall₂_map_right_iff, List.forall₂_same]
      exact fun e _ => format.shows_line e.2 e.1
    · rw [content?_run hx, hc, Option.map_some, List.flatMap_def]
  · obtain rfl := Option.some.inj (hs.symm.trans hk)
    obtain rfl := Option.some.inj hb
    have hf : s.facadeEvents steps =
        (sent.filter fun e => e.2.Admitted bound').filterMap fun e => e.2.facadeEvent? := by
      rw [facadeEvents_run hx, ho, List.filterMap_map, List.filterMap_filter]
      simp [Function.comp_def, HandOver.facade?]
    rw [hf]
    exact forall₂_tells_filterMap fun e he => facadeEvent?_of_admitted (of_decide_eq_true (List.mem_filter.1 he).2)

section
variable {α : Type} (step : α → Step) (record : α → Record) (gate : α → Bool)

/-- The records that arrive of those that a log is about. -/
def passedOn (log : List (String × α)) : List (String × Record) :=
  log.map fun e => (e.1, (Client.call (record e.2)).record)

theorem Feeds.putsOut (h : s.Feeds client c i sink) {bound : Level} (hb : sink.bound? = some bound)
    (hl : ∀ a, Logs (step a))
    (hg : ∀ {s : Session}, s.Feeds client c i sink → ∀ now a, s.handOver? now (step a) =
      if gate a then some ⟨now, i.sink, sink, (Client.call (record a)).record⟩ else none)
    (log : List (String × α)) :
    s.PutsOut i.sink (log.map fun e => (e.1, step e.2))
      (passedOn record (log.filter fun e => (record e.2).Admitted bound && gate e.2)) := by
  have hx : ∀ e ∈ log.map fun e => (e.1, step e.2), Logs e.2 := by
    intro e he
    obtain ⟨e', -, rfl⟩ := List.mem_map.1 he
    exact hl e'.2
  have ho : s.handOvers (log.map fun e => (e.1, step e.2)) =
      (passedOn record (log.filter fun e => gate e.2)).map fun e => ⟨e.1, i.sink, sink, e.2⟩ := by
    rw [h.handOvers_eq step record gate hb hl hg, passedOn, List.map_map]
    rfl
  have hadmit (r : Record) : (Client.call r).record.Admitted bound ↔ r.Admitted bound :=
    Record.admitted_passed (Client.passedAs_record r) bound
  have hp := putsOut_of_handOvers hx h.sink hb ho
  rw [passedOn, List.filter_map, List.filter_filter] at hp
  simp only [Function.comp_def, hadmit] at hp
  exact hp

end

theorem Feeds.putsOut_send (h : s.Feeds client c i sink) {bound : Level} (hb : sink.bound? = some bound)
    (log : List (String × GuardedCall)) :
    s.PutsOut i.sink (log.map fun e => (e.1, .send client e.2.record))
      (passedOn GuardedCall.record (log.filter fun e => e.2.record.Admitted bound)) := by
  have hp := h.putsOut (fun g => .send client g.record) GuardedCall.record (fun _ => true) hb (fun _ => trivial)
    (fun h now g => h.handOver?_send now g.record) log
  simpa only [Bool.and_true] using hp

theorem Feeds.putsOut_guarded (h : s.Feeds client c i sink) {bound : Level} (hb : sink.bound? = some bound)
    (log : List (String × GuardedCall)) :
    s.PutsOut i.sink (log.map fun e => (e.1, .guarded client e.2))
      (passedOn GuardedCall.record (log.filter fun e => e.2.record.Admitted (min c.level bound))) := by
  have hp := h.putsOut (.guarded client) GuardedCall.record (fun g => g.record.Admitted c.level) hb (fun _ => trivial)
    (fun h now g => by simpa using h.handOver?_guarded now g) log
  have hboth (r : Record) : (decide (r.Admitted bound) && decide (r.Admitted c.level)) =
      decide (r.Admitted (min c.level bound)) := by
    rw [Bool.eq_iff_iff]
    simp [Record.admitted_min, and_comm]
  simpa only [hboth] using hp

/-- Which records are shown, and as what, does not depend on when. -/
theorem map_snd_passedOn {log log' : List (String × GuardedCall)} (h : log'.map Prod.snd = log.map Prod.snd)
    (bound : Level) :
    (passedOn GuardedCall.record (log'.filter fun e => e.2.record.Admitted bound)).map Prod.snd =
      (passedOn GuardedCall.record (log.filter fun e => e.2.record.Admitted bound)).map Prod.snd := by
  have key (l : List (String × GuardedCall)) :
      (passedOn GuardedCall.record (l.filter fun e => e.2.record.Admitted bound)).map Prod.snd =
        ((l.map Prod.snd).filter fun g => g.record.Admitted bound).map fun g => (Client.call g.record).record := by
    rw [passedOn, List.filter_map, List.map_map, List.map_map]
    rfl
  rw [key, key, h]

/-- Of what macros are used for with one client, its sink puts out the records that the lower of the client's level and the
sink's bound admits, once each and in order. Where the bound is the lower one, the client need not be asked: passing on
every record, at whatever times, puts out the same records. -/
theorem sink_puts_out_admitted_by_both (h : Rooted s) {cl : Derived Client} (hc : s.clients.lookup client = some cl)
    {name : String} (hi : (name, i) ∈ s.interfaces) (hr : cl.value.handle.receiver = some i.receiver)
    (hs : s.sinks.lookup i.sink = some sink) {bound : Level} (hb : sink.bound? = some bound) :
    ∃ pass : Record → Record, (∀ r : Record, r.PassedAs (pass r)) ∧ ∀ log : List (String × GuardedCall),
      let shown :=
        (log.filter fun e => e.2.record.Admitted (min cl.value.level bound)).map fun e => (e.1, pass e.2.record)
      s.PutsOut i.sink (log.map fun e => (e.1, .guarded client e.2)) shown ∧
        (bound ≤ cl.value.level → ∀ log' : List (String × GuardedCall), log'.map Prod.snd = log.map Prod.snd →
          ∃ shown', shown'.map Prod.snd = shown.map Prod.snd ∧
            s.PutsOut i.sink (log'.map fun e => (e.1, .send client e.2.record)) shown') := by
  have hf := h.anchored.feeds hc hi hr hs
  refine ⟨fun r => (Client.call r).record, Client.passedAs_record, fun log => ?_⟩
  intro shown
  refine ⟨hf.putsOut_guarded hb log, fun hle log' hlog => ?_⟩
  have hmin : min cl.value.level bound = bound := Level.min_eq_right hle
  refine ⟨_, ?_, hf.putsOut_send hb log'⟩
  rw [← hmin]
  exact map_snd_passedOn hlog _

/-- A client of level `debug` over a file sink with the bound `info`: a record between the two levels, topics that are
louder and quieter than both, and one without a level. Unasked, at other times, the client logs the same. -/
theorem sink_puts_out_admitted_by_both_onFile :
    let s := ((onFile .text).run [("", .makeInterface "main" "file" .debug), ("", .ownClient "client" "main")]).1
    let cl : Derived Client := ⟨some "main", .ofOwn (.own 1 .debug)⟩
    let i : Interface := ⟨.own 1 .debug, 1, "file"⟩
    let log : List (String × GuardedCall) :=
      [("t0", ⟨.severity .info none, ⟨"a.c", 1, "f"⟩, "100%"⟩), ("t1", ⟨.level .debug, ⟨"a.c", 2, "f"⟩, "two"⟩),
        ("t2", ⟨.topic .trace (.withLevel "net\x00work" .trace), ⟨"a.c", 3, "f"⟩, "three"⟩),
        ("t3", ⟨.severity .error (some (.withLevel "net" .off)), ⟨"a.c", 4, "f"⟩, "four"⟩),
        ("t4", ⟨.level .off, ⟨"a.c", 5, "f"⟩, "five"⟩)]
    let log' := log.map fun e => (e.1 ++ "0", e.2)
    let plain : Record := ⟨.info, none, "a.c", 1, "f", "100%"⟩
    let loud : Record := ⟨.trace, some (.withLevel "net" .trace), "a.c", 3, "f", "three"⟩
    Rooted s ∧ s.clients.lookup "client" = some cl ∧ ("main", i) ∈ s.interfaces ∧
      cl.value.handle.receiver = some i.receiver ∧ s.sinks.lookup i.sink = some (.file .info .text 16) ∧
      Level.info ≤ cl.value.level ∧ log'.map Prod.snd = log.map Prod.snd ∧
      s.PutsOut "file" (log.map fun e => (e.1, .guarded "client" e.2)) [("t0", plain), ("t2", loud)] ∧
      (s.run (log.map fun e => (e.1, .guarded "client" e.2))).1.files.content? 16 = some (Format.ascii
        "old\n[t0][ INFO] spa: a.c:1 f(): 100%\n[t2][TRACE] net: a.c:3 f(): three\n") ∧
      ∃ shown', shown'.map Prod.snd = [plain, loud] ∧
        s.PutsOut "file" (log'.map fun e => (e.1, .send "client" e.2.record)) shown' := by
  intro s cl i log log' plain loud
  have h : Rooted s := (rooted_initial.run _).run _
  have hc : s.clients.lookup "client" = some cl := rfl
  have hi : ("main", i) ∈ s.interfaces := mem_of_lookup rfl
  have hs : s.sinks.lookup i.sink = some (.file .info .text 16) := rfl
  have hle : Level.info ≤ cl.value.level := by decide
  obtain ⟨pass, hpass, hlog⟩ := sink_puts_out_admitted_by_both h hc hi rfl hs rfl
  have hplain : pass plain = plain :=
    (hpass plain).eq ⟨rfl, rfl, by decide, by decide, by decide, longestWithin_takeWhile (by decide) (by decide)⟩
  have hloud : pass { loud with topic := some (.withLevel "net\x00work" .trace) } = loud :=
    (hpass _).eq ⟨rfl, by decide, by decide, by decide, by decide, longestWithin_takeWhile (by decide) (by decide)⟩
  obtain ⟨hasked, hunasked⟩ := hlog log
  have hshown : s.PutsOut "file" (log.map fun e => (e.1, .guarded "client" e.2))
      [("t0", pass plain), ("t2", pass { loud with topic := some (.withLevel "net\x00work" .trace) })] := hasked
  obtain ⟨shown', hsame, hsent⟩ := hunasked hle log' rfl
  have hsame : shown'.map Prod.snd =
      [pass plain, pass { loud with topic := some (.withLevel "net\x00work" .trace) }] := hsame
  rw [hplain, hloud] at hshown hsame
  refine ⟨h, hc, hi, rfl, hs, hle, rfl, hshown, ?_, shown', hsame, hsent⟩
  obtain ⟨lines, hlines, hcontent⟩ := hshown.file .info .text 16 _ hs (content?_onFile .text)
  obtain ⟨line, rest, hline, hrest, rfl⟩ := List.forall₂_cons_left_iff.1 hlines
  obtain ⟨line', none, hline', hnone, rfl⟩ := List.forall₂_cons_left_iff.1 hrest
  obtain rfl := List.forall₂_nil_left_iff.1 hnone
  rw [hcontent, hline.eq_line, hline'.eq_line]
  decide

end Session
end LogRelay
