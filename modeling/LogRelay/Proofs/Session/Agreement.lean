import LogRelay.Proofs.Session.Gating
import LogRelay.Proofs.Session.JsonLog

/-!
# Sinks that agree

A facade sink, a file sink for text and one for JSON, all with one bound, may be handed the same records in any
interleaving and at any times. None of them changes by that (`HasTrio.step`), so each goes on showing of its records
those that the one bound admits. What is seen of such a record is a `Showing`: the event, the text and the JSON tell the
same of it.
-/

namespace LogRelay

/-- What is seen of one record: an event, a line of text, and a line of JSON without its newline. -/
structure Showing where
  record : Record
  event : FacadeEvent
  textTime : String
  textLine : String
  jsonTime : String
  jsonLine : Bytes

/-- All that is seen tells the same of the record, the lines with their times. -/
structure Showing.Agrees (o : Showing) : Prop where
  event : o.event.Tells o.record
  text : ∃ level, o.record.level.Named level ∧
    o.textLine = textLayout o.textTime level o.event.target o.record.file o.record.line.toNat o.event.text
  json : LineFormat.json.Shows o.record o.jsonTime (o.jsonLine ++ [10])

namespace Record

def showing (r : Record) (e : FacadeEvent) (textTime jsonTime : String) : Showing :=
  ⟨r, e, textTime, r.textLine textTime, jsonTime, r.jsonBytes jsonTime⟩

theorem agrees_showing {r : Record} {e : FacadeEvent} (he : r.facadeEvent? = some e) (textTime jsonTime : String) :
    (r.showing e textTime jsonTime).Agrees := by
  have ht := tells_facadeEvent he
  refine ⟨ht, ⟨r.level.name, r.level.named_name, ?_⟩, ?_⟩
  · show r.textLine textTime = textLayout textTime r.level.name e.target r.file r.line.toNat e.text
    rw [r.textLine_eq, ht.target, ht.text, statement]
  · show LineFormat.json.Shows r jsonTime (r.jsonBytes jsonTime ++ [10])
    rw [← r.ofText_jsonLine]
    exact LineFormat.shows_line .json r jsonTime

end Record

/-- Records with their events, and with two times for each, are showings. -/
theorem exists_showings {records : List Record} {texts jsons : List (String × Record)} {events : List FacadeEvent}
    (ht : texts.map Prod.snd = records) (hj : jsons.map Prod.snd = records)
    (he : events.map some = records.map Record.facadeEvent?) :
    ∃ shown : List Showing, (∀ o ∈ shown, o.Agrees) ∧ shown.map (fun o => (o.textTime, o.record)) = texts ∧
      shown.map (fun o => (o.jsonTime, o.record)) = jsons ∧ shown.map Showing.event = events ∧
      (shown.flatMap fun o => Utf8.ofText o.textLine) =
        (texts.flatMap fun e => Utf8.ofText (LineFormat.text.line e.2 e.1)) ∧
      (shown.flatMap fun o => o.jsonLine ++ [10]) =
        jsons.flatMap fun e => Utf8.ofText (LineFormat.json.line e.2 e.1) := by
  induction records generalizing texts jsons events with
  | nil =>
    obtain rfl := List.map_eq_nil_iff.1 ht
    obtain rfl := List.map_eq_nil_iff.1 hj
    obtain rfl := List.map_eq_nil_iff.1 he
    exact ⟨[], by simp⟩
  | cons r records ih =>
    obtain ⟨⟨textTime, _⟩, texts, rfl, rfl, hts⟩ := List.map_eq_cons_iff.1 ht
    obtain ⟨⟨jsonTime, r⟩, jsons, rfl, hr, hjs⟩ := List.map_eq_cons_iff.1 hj
    obtain ⟨e, events, rfl, hev, hes⟩ := List.map_eq_cons_iff.1 he
    obtain rfl : r = _ := hr
    obtain ⟨shown, hagree, htexts, hjsons, hevents, htext, hjson⟩ := ih hts hjs hes
    have hline : r.jsonBytes jsonTime ++ [10] = Utf8.ofText (LineFormat.json.line r jsonTime) :=
      (r.ofText_jsonLine jsonTime).symm
    refine ⟨r.showing e textTime jsonTime :: shown,
      List.forall_mem_cons.2 ⟨Record.agrees_showing hev.symm textTime jsonTime, hagree⟩, ?_, ?_, ?_, ?_, ?_⟩
    · rw [List.map_cons, htexts]
      rfl
    · rw [List.map_cons, hjsons]
      rfl
    · rw [List.map_cons, hevents]
      rfl
    · rw [List.flatMap_cons, List.flatMap_cons, htext]
      rfl
    · rw [List.flatMap_cons, List.flatMap_cons, hjson, ← hline]
      rfl

/-- The record that a step hands to the sink `name` itself. -/
def Step.handing? (name : String) : Step → Option Record
  | .hand other r => if other = name then some r else none
  | _ => none

/-- The names of three sinks, and the files of two of them. -/
structure Trio where
  facade : String
  text : String
  json : String
  textFile : NodeId
  jsonFile : NodeId

namespace Trio

/-- A step that hands a record to one of the three. -/
inductive Hands (t : Trio) : Step → Prop where
  | facade (r : Record) : Hands t (.hand t.facade r)
  | text (r : Record) : Hands t (.hand t.text r)
  | json (r : Record) : Hands t (.hand t.json r)

/-- The sink of a name that writes to a file. -/
inductive Writes (t : Trio) : String → LineFormat → NodeId → Prop where
  | text : Writes t t.text .text t.textFile
  | json : Writes t t.json .json t.jsonFile

end Trio

namespace Session

variable {s : Session} {t : Trio} {bound : Level} {x : Step}

/-- The records that steps hand to the sink `name`, each at its time. -/
def handedTo (name : String) (steps : List (String × Step)) : List (String × Record) :=
  steps.filterMap fun e => (e.2.handing? name).map fun r => (e.1, r)

/-- The sinks are there, with one bound for all three, and over files of their own. -/
structure HasTrio (s : Session) (t : Trio) (bound : Level) : Prop where
  facade : s.sinks.lookup t.facade = some (.facade bound)
  text : s.sinks.lookup t.text = some (.file bound .text t.textFile)
  json : s.sinks.lookup t.json = some (.file bound .json t.jsonFile)
  apart : t.textFile ≠ t.jsonFile

theorem HasTrio.names (h : s.HasTrio t bound) : t.facade ≠ t.text ∧ t.facade ≠ t.json ∧ t.text ≠ t.json := by
  refine ⟨fun he => ?_, fun he => ?_, fun he => ?_⟩
  · cases (he ▸ h.facade).symm.trans h.text
  · cases (he ▸ h.facade).symm.trans h.json
  · cases (he ▸ h.text).symm.trans h.json

/-! ## One step -/

theorem handOver?_hand {name : String} {sink : Sink} (hs : s.sinks.lookup name = some sink) (now : String)
    (r : Record) : s.handOver? now (.hand name r) = some ⟨now, name, sink, r⟩ := by
  simp [handOver?, handed?, hs]

theorem facade_hand {name : String} {sink : Sink} (hs : s.sinks.lookup name = some sink) (now : String) (r : Record) :
    (s.step now (.hand name r)).2.2.filterMap Event.facade? = (HandOver.facade? ⟨now, name, sink, r⟩).toList := by
  have hevents : (s.step now (.hand name r)).2.2 =
      reactionEvents name (s.reaction ⟨now, name, sink, r⟩) ++ [] ++
        appendedEvents (s.reaction ⟨now, name, sink, r⟩).files (s.reaction ⟨now, name, sink, r⟩).written := by
    show (s.withNamed s.sinks name _).2.2 = _
    simp only [withNamed, hs]
    rfl
  rw [hevents, List.filterMap_append, List.filterMap_append, s.facade_reactionEvents ⟨now, name, sink, r⟩,
    filterMap_appendedEvents fun _ _ => rfl]
  simp

theorem lookup_hand {name : String} {sink : Sink} (hs : s.sinks.lookup name = some sink)
    (hb : sink.bound? = some bound) (now : String) (r : Record) (other : String) :
    (s.step now (.hand name r)).1.sinks.lookup other = s.sinks.lookup other := by
  rw [step_of_handOver (handOver?_hand hs now r), lookup_handedOver, Sink.after_of_bound? hb]
  split
  · next he => rw [he, hs, Option.map_some]
  · rfl

/-- The three sinks stay as they are. -/
theorem HasTrio.step (h : s.HasTrio t bound) (hx : t.Hands x) (now : String) : (s.step now x).1.HasTrio t bound := by
  have hl (name : String) : (s.step now x).1.sinks.lookup name = s.sinks.lookup name := by
    cases hx with
    | facade r => exact lookup_hand h.facade rfl now r name
    | text r => exact lookup_hand h.text rfl now r name
    | json r => exact lookup_hand h.json rfl now r name
  exact ⟨(hl _).trans h.facade, (hl _).trans h.text, (hl _).trans h.json, h.apart⟩

theorem HasTrio.facade_step (h : s.HasTrio t bound) (hx : t.Hands x) (now : String) :
    (s.step now x).2.2.filterMap Event.facade? =
      (((x.handing? t.facade).filter fun r => r.Admitted bound).bind Record.facadeEvent?).toList := by
  obtain ⟨hft, hfj, -⟩ := h.names
  cases hx with
  | facade r =>
    rw [facade_hand h.facade]
    by_cases ha : r.Admitted bound <;> simp [HandOver.facade?, Step.handing?, Option.filter_some, ha]
  | text r => simp [facade_hand h.text, HandOver.facade?, Step.handing?, hft.symm]
  | json r => simp [facade_hand h.json, HandOver.facade?, Step.handing?, hfj.symm]

theorem HasTrio.content?_step (h : s.HasTrio t bound) (hx : t.Hands x) (now : String) {name : String}
    {format : LineFormat} {node : NodeId} (hw : t.Writes name format node) :
    (s.step now x).1.files.content? node = (s.files.content? node).map
      (· ++ (((x.handing? name).filter fun r => r.Admitted bound).map fun r => format.line r now).toList.flatMap
        Utf8.ofText) := by
  obtain ⟨hft, hfj, htj⟩ := h.names
  have hstep {other : String} {sink : Sink} (hs : s.sinks.lookup other = some sink) (r : Record) :
      (s.step now (.hand other r)).1.files.content? node = (s.files.content? node).map
        (· ++ (HandOver.line? node ⟨now, other, sink, r⟩).toList.flatMap Utf8.ofText) := by
    rw [step_of_handOver (handOver?_hand hs now r), content?_handedOver]
  cases hx with
  | facade r =>
    rw [hstep h.facade]
    cases hw <;> simp [HandOver.line?, Step.handing?, hft, hfj]
  | text r =>
    rw [hstep h.text]
    cases hw with
    | text => by_cases ha : r.Admitted bound <;> simp [HandOver.line?, Step.handing?, Option.filter_some, ha]
    | json => simp [HandOver.line?, Step.handing?, h.apart, htj]
  | json r =>
    rw [hstep h.json]
    cases hw with
    | text => simp [HandOver.line?, Step.handing?, h.apart.symm, htj.symm]
    | json => by_cases ha : r.Admitted bound <;> simp [HandOver.line?, Step.handing?, Option.filter_some, ha]

/-! ## Runs -/

variable {steps : List (String × Step)}

/-- The records that steps hand to the sink `name` and that the bound admits. -/
def admittedTo (bound : Level) (name : String) (steps : List (String × Step)) : List (String × Record) :=
  (handedTo name steps).filter fun e => e.2.Admitted bound

theorem admittedTo_cons (bound : Level) (name now : String) (x : Step) (steps : List (String × Step)) :
    admittedTo bound name ((now, x) :: steps) =
      (((x.handing? name).filter fun r => r.Admitted bound).map fun r => (now, r)).toList ++
        admittedTo bound name steps := by
  unfold admittedTo handedTo
  rw [List.filterMap_cons]
  cases x.handing? name with
  | none => rfl
  | some r => by_cases ha : r.Admitted bound <;> simp [Option.filter_some, ha]

theorem map_snd_admittedTo {name : String} {records : List Record}
    (h : (handedTo name steps).map Prod.snd = records) (bound : Level) :
    (admittedTo bound name steps).map Prod.snd = records.filter fun r => r.Admitted bound := by
  rw [← h, List.filter_map]
  rfl

theorem HasTrio.facadeEvents_run (h : s.HasTrio t bound) (hs : ∀ e ∈ steps, t.Hands e.2) :
    s.facadeEvents steps = (admittedTo bound t.facade steps).filterMap fun e => e.2.facadeEvent? := by
  induction steps generalizing s with
  | nil => rfl
  | cons e steps ih =>
    obtain ⟨hx, hs⟩ := List.forall_mem_cons.1 hs
    rw [facadeEvents_cons, admittedTo_cons, List.filterMap_append, ih (h.step hx e.1) hs, h.facade_step hx e.1]
    congr 1
    cases (e.2.handing? t.facade).filter fun r => r.Admitted bound with
    | none => rfl
    | some r => cases hv : r.facadeEvent? <;> simp [hv]

theorem HasTrio.content?_run (h : s.HasTrio t bound) (hs : ∀ e ∈ steps, t.Hands e.2) {name : String}
    {format : LineFormat} {node : NodeId} (hw : t.Writes name format node) :
    (s.run steps).1.files.content? node = (s.files.content? node).map
      (· ++ (admittedTo bound name steps).flatMap fun e => Utf8.ofText (format.line e.2 e.1)) := by
  induction steps generalizing s with
  | nil => simp [run, admittedTo, handedTo]
  | cons e steps ih =>
    obtain ⟨hx, hs⟩ := List.forall_mem_cons.1 hs
    show ((s.step e.1 e.2).1.run steps).1.files.content? node = _
    rw [ih (h.step hx e.1) hs, h.content?_step hx e.1 hw, Option.map_map, admittedTo_cons]
    congr 1
    funext old
    cases (e.2.handing? name).filter fun r => r.Admitted bound <;> simp

/-- Three sinks with one bound, handed the same records in any interleaving, show the same of them: those that the bound
admits, in their order. The events, the lines that the text file gains and those that the other gains as JSON are these
records' and nobody else's, and tell the same of each. Every record past the bound has a level that an event can
have. -/
theorem sinks_agree (h : s.HasTrio t bound) {oldText oldJson : Bytes}
    (ht : s.files.content? t.textFile = some oldText) (hj : s.files.content? t.jsonFile = some oldJson)
    (hs : ∀ e ∈ steps, t.Hands e.2) {records : List Record}
    (hr : ∀ name ∈ [t.facade, t.text, t.json], (handedTo name steps).map Prod.snd = records) :
    (∀ r : Record, r.isEnabled bound = true → ∃ severity, Severity.ofLevel? r.level = some severity) ∧
    ∃ shown : List Showing,
      shown.map Showing.record = records.filter (fun r => r.Admitted bound) ∧ (∀ o ∈ shown, o.Agrees) ∧
      s.facadeEvents steps = shown.map Showing.event ∧
      (s.run steps).1.files.content? t.textFile =
        some (oldText ++ shown.flatMap fun o => Utf8.ofText o.textLine) ∧
      (s.run steps).1.files.content? t.jsonFile = some (oldJson ++ shown.flatMap fun o => o.jsonLine ++ [10]) ∧
      shown.map (fun o => (o.textTime, o.record)) = (handedTo t.text steps).filter (fun e => e.2.Admitted bound) ∧
      shown.map (fun o => (o.jsonTime, o.record)) = (handedTo t.json steps).filter fun e => e.2.Admitted bound := by
  refine ⟨fun r hb => ?_, ?_⟩
  · have ha := facadeEvent?_of_admitted ((r.isEnabled_iff bound).1 hb)
    rw [Record.facadeEvent?, Option.isSome_map] at ha
    exact Option.isSome_iff_exists.1 ha
  · have hadmitted : ∀ name ∈ [t.facade, t.text, t.json],
        (admittedTo bound name steps).map Prod.snd = records.filter fun r => r.Admitted bound :=
      fun name hn => map_snd_admittedTo (hr name hn) bound
    simp only [List.forall_mem_cons] at hadmitted
    obtain ⟨hfacade, htext, hjson, -⟩ := hadmitted
    have hevents : (s.facadeEvents steps).map some =
        (records.filter fun r => r.Admitted bound).map Record.facadeEvent? := by
      rw [h.facadeEvents_run hs, ← hfacade, List.map_map]
      exact map_some_filterMap fun e he => facadeEvent?_of_admitted (of_decide_eq_true (List.mem_filter.1 he).2)
    obtain ⟨shown, hagree, htexts, hjsons, hshown, htextLines, hjsonLines⟩ := exists_showings htext hjson hevents
    refine ⟨shown, ?_, hagree, hshown.symm, ?_, ?_, htexts, hjsons⟩
    · rw [← htext, ← htexts, List.map_map]
      rfl
    · rw [h.content?_run hs .text, ht, Option.map_some, htextLines]
    · rw [h.content?_run hs .json, hj, Option.map_some, hjsonLines]

/-- Three sinks, of which the one for text is over a file that has a line already. -/
def threefold : Session :=
  ((onFile .text).run
    [("", .makeSink "facade" (.facade .info)), ("", .makeSink "json" (.file (Format.ascii "json") .info .json))]).1

/-- A record that each of the three shows, one that the bound keeps out, one that its topic lets in, and one without a
level, which get to the three in turn, in a row, and in two goes. -/
theorem sinks_agree_threefold :
    let t : Trio := ⟨"facade", "file", "json", 16, 17⟩
    let plain : Record := ⟨.info, none, "a.c", 1, "f", "one\n\"two\""⟩
    let quiet : Record := ⟨.debug, none, "a.c", 2, "f", "unheard"⟩
    let loud : Record := ⟨.trace, some (.withLevel "net" .trace), "b.c", 3, "g", "é"⟩
    let off : Record := ⟨.off, none, "a.c", 4, "f", "unheard"⟩
    let steps : List (String × Step) :=
      [("t0", .hand "facade" plain), ("t1", .hand "json" plain), ("t2", .hand "json" quiet), ("t3", .hand "file" plain),
       ("t4", .hand "facade" quiet), ("t5", .hand "facade" loud), ("t6", .hand "facade" off),
       ("t7", .hand "json" loud), ("t8", .hand "json" off), ("t9", .hand "file" quiet), ("ta", .hand "file" loud),
       ("tb", .hand "file" off)]
    threefold.HasTrio t .info ∧ (∀ e ∈ steps, t.Hands e.2) ∧
      (∀ name ∈ [t.facade, t.text, t.json], (handedTo name steps).map Prod.snd = [plain, quiet, loud, off]) ∧
      ∃ shown : List Showing, shown.map Showing.record = [plain, loud] ∧ (∀ o ∈ shown, o.Agrees) ∧
        threefold.facadeEvents steps = shown.map Showing.event ∧
        shown.map (fun o => (o.textTime, o.record)) = [("t3", plain), ("ta", loud)] ∧
        shown.map (fun o => (o.jsonTime, o.record)) = [("t1", plain), ("t7", loud)] := by
  intro t plain quiet loud off steps
  have h : threefold.HasTrio t .info := ⟨rfl, rfl, rfl, by decide⟩
  have htext : threefold.files.content? 16 = some (Format.ascii "old\n") := rfl
  have hjson : threefold.files.content? 17 = some [] := rfl
  have hs : ∀ e ∈ steps, t.Hands e.2 := by
    simp only [steps, List.forall_mem_cons]
    exact ⟨.facade _, .json _, .json _, .text _, .facade _, .facade _, .facade _, .json _, .json _, .text _, .text _,
      .text _, List.forall_mem_nil _⟩
  have hr : ∀ name ∈ [t.facade, t.text, t.json], (handedTo name steps).map Prod.snd = [plain, quiet, loud, off] := by
    decide
  obtain ⟨-, shown, hrecords, hagree, hevents, -, -, htexts, hjsons⟩ := sinks_agree h htext hjson hs hr
  exact ⟨h, hs, hr, shown, hrecords, hagree, hevents, htexts, hjsons⟩

end Session
end LogRelay
