import LogRelay.Proofs.Files
import LogRelay.Proofs.Gate
import LogRelay.Proofs.Session.FileLog

/-!
# Log files over a run

Whatever happens in a run, a file holds what it held before and behind it the lines of the records that were handed to
the sinks over it and got past their bounds, in the order in which they were handed over (`Grounded.gains_run`). Only one
who replaces files could do anything else to them, and no sink does. `Grounded` sessions are those whose file sinks are
over files that are there.
-/

namespace LogRelay

/-- The line that the sink of a hand-over appends to the file `node`, if it does. -/
def HandOver.line? (node : NodeId) (h : HandOver) : Option String :=
  match h.sink with
  | .file bound format id =>
    if id = node ∧ h.record.Admitted bound then some (format.line h.record h.now) else none
  | _ => none

theorem Sink.file_of_after {sink : Sink} {r : Record} {bound : Level} {format : LineFormat} {node : NodeId}
    (h : sink.after r = .file bound format node) : sink = .file bound format node := by
  cases sink with
  | recorder k => cases h
  | _ => exact h

theorem Sink.Made.extends {files files' : Files} {sink : Sink} (h : sink.Made files files') : files.Extends files' := by
  cases h with
  | file path bound format ho => exact (Files.openAppend_eq_ok ho).1
  | _ => exact .refl files

theorem Sink.Made.sound {files files' : Files} {sink : Sink} (h : sink.Made files files') (hs : files.Sound) :
    files'.Sound ∧ ∀ bound format node, sink = .file bound format node → node < files'.nodes.length := by
  cases h with
  | file path bound format ho =>
    obtain ⟨hs', hlt⟩ := (Files.openAppend_eq_ok ho).2.2 hs
    refine ⟨hs', fun _ _ node hk => ?_⟩
    cases hk
    exact hlt
  | _ => exact ⟨hs, fun _ _ _ hk => by cases hk⟩

/-- The log file of a configuration: its path, and the bound and the format of the sink over it. -/
def Config.logFile? (c : Config) : Option (Bytes × Level × LineFormat) :=
  match c.sink with
  | .file path => some (path, c.level, c.format)
  | _ => none

/-- The log file that a request is to open. -/
def SinkRequest.logFile? : SinkRequest → Option (Bytes × Level × LineFormat)
  | .file path bound format => some (path, bound, format)
  | .configured c => c.logFile?
  | .environment env => (Config.ofEnvironment env).toOption.bind Config.logFile?
  | _ => none

namespace Session

variable {s s' : Session}

/-- The lines that a run appends to the file `node`, in order. -/
def linesTo (s : Session) (node : NodeId) (steps : List (String × Step)) : List String :=
  (s.handOvers steps).filterMap (HandOver.line? node)

/-- The tree of files is sound, and every file sink is over one of its nodes. -/
structure Grounded (s : Session) : Prop where
  sound : s.files.Sound
  placed : ∀ e ∈ s.sinks, ∀ bound format node, e.2 = .file bound format node → node < s.files.nodes.length

/-- A step at which somebody puts other content into a file. -/
def Replaces : Step → Prop
  | .replaceFile _ _ => True
  | _ => False

/-! ## One step -/

theorem files_handedOver (s : Session) (h : HandOver) : (s.handedOver h).files =
    match h.sink with
    | .file bound format node =>
      if h.record.Admitted bound then s.files.append node (Utf8.ofText (format.line h.record h.now)) else s.files
    | _ => s.files := by
  show (h.sink.accept s.logger s.files h.now h.record).files = _
  unfold Sink.accept
  cases h.sink with
  | recorder k => rfl
  | silent => rfl
  | facade bound =>
    simp only
    split
    · split <;> rfl
    · rfl
  | file bound format node =>
    simp only [← h.record.isEnabled_iff]
    split <;> rfl

theorem gains_handedOver {now : String} {x : Step} {h : HandOver} (hs : s.Grounded) (hh : s.handOver? now x = some h)
    (node : NodeId) : s.files.Gains (s.handedOver h).files node ((h.line? node).toList.flatMap Utf8.ofText) := by
  have hl := (lookup_of_handOver hh).2.1
  rw [files_handedOver, HandOver.line?]
  cases hk : h.sink with
  | file bound format id =>
    have hid : id < s.files.nodes.length := hs.placed _ (mem_of_lookup (hk ▸ hl)) _ _ _ rfl
    by_cases ha : h.record.Admitted bound
    · have hg := Files.gains_append hid (Utf8.ofText (format.line h.record h.now)) node
      by_cases he : id = node
      · simpa [ha, he] using hg
      · simpa [ha, he, Ne.symm he] using hg
    · simpa [ha] using (Files.Extends.refl s.files).gains node
  | _ => exact (Files.Extends.refl s.files).gains node

/-- A quiet step leaves all content as it is, unless it replaces a file. -/
theorem Quiet.extends {x : Step} (hq : Quiet s x s') (hx : ¬ Replaces x) : s.files.Extends s'.files := by
  cases hq with
  | sink name request hm => exact hm.extends
  | replaced path content => exact absurd trivial hx
  | directory path => exact (s.files.extends_makeDirectory path).1
  | refused path number => exact (s.files.extends_refuse path number).1
  | _ => exact .refl s.files

theorem Quiet.grows {x : Step} (hq : Quiet s x s') :
    s.files.Grows s'.files ∧ (s.files.Sound → s'.files.Sound) := by
  cases hq with
  | sink name request hm => exact ⟨hm.extends.toGrows, fun hs => (hm.sound hs).1⟩
  | replaced path content => exact s.files.grows_replace path content
  | directory path =>
    obtain ⟨he, hs⟩ := s.files.extends_makeDirectory path
    exact ⟨he.toGrows, hs⟩
  | refused path number =>
    obtain ⟨he, hs⟩ := s.files.extends_refuse path number
    exact ⟨he.toGrows, hs⟩
  | _ => exact ⟨.refl s.files, id⟩

theorem grows_handedOver (s : Session) (h : HandOver) :
    s.files.Grows (s.handedOver h).files ∧ (s.files.Sound → (s.handedOver h).files.Sound) := by
  rw [files_handedOver]
  split
  · split
    · exact s.files.grows_append _ _
    · exact ⟨.refl _, id⟩
  · exact ⟨.refl _, id⟩

theorem grows_step (s : Session) (now : String) (x : Step) : s.files.Grows (s.step now x).1.files := by
  rcases s.step_cases now x with ⟨h, -, hs⟩ | ⟨-, hq⟩
  · rw [hs]
    exact (s.grows_handedOver h).1
  · exact hq.grows.1

theorem Grounded.quiet {x : Step} (h : s.Grounded) (hq : Quiet s x s') : s'.Grounded := by
  obtain ⟨hg, hsound⟩ := hq.grows
  have kept : ∀ e ∈ s.sinks, ∀ bound format node, e.2 = .file bound format node → node < s'.files.nodes.length :=
    fun e he bound format node hk => Nat.lt_of_lt_of_le (h.placed e he bound format node hk) hg.length
  refine ⟨hsound h.sound, ?_⟩
  cases hq with
  | sink name request hm =>
    intro e he bound format node hk
    rcases List.mem_cons.1 he with rfl | he
    · exact (hm.sound h.sound).2 bound format node hk
    · exact kept e he bound format node hk
  | _ => exact kept

theorem Grounded.handedOver {now : String} {x : Step} {ho : HandOver} (h : s.Grounded)
    (hh : s.handOver? now x = some ho) : (s.handedOver ho).Grounded := by
  obtain ⟨hg, hsound⟩ := s.grows_handedOver ho
  refine ⟨hsound h.sound, fun e he bound format node hk => Nat.lt_of_lt_of_le ?_ hg.length⟩
  obtain ⟨e', he', rfl⟩ := List.mem_map.1 he
  split at hk
  · have hk : (s.reaction ho).sink = .file bound format node := hk
    rw [reaction, Sink.sink_accept] at hk
    exact h.placed _ (mem_of_lookup (lookup_of_handOver hh).2.1) _ _ _ (Sink.file_of_after hk)
  · exact h.placed e' he' _ _ _ hk

theorem Grounded.step (h : s.Grounded) (now : String) (x : Step) : (s.step now x).1.Grounded := by
  rcases s.step_cases now x with ⟨ho, hh, hs⟩ | ⟨-, hq⟩
  · rw [hs]
    exact h.handedOver hh
  · exact h.quiet hq

theorem grounded_initial : initial.Grounded := ⟨Files.sound_initial, fun e he => by cases he⟩

/-! ## Runs -/

theorem Grounded.run (h : s.Grounded) (steps : List (String × Step)) : (s.run steps).1.Grounded :=
  run_preserves (fun _ now x h => h.step now x) h steps

theorem grows_run (s : Session) (steps : List (String × Step)) : s.files.Grows (s.run steps).1.files :=
  run_preserves (P := fun t => s.files.Grows t.files) (fun t now x h => h.trans (t.grows_step now x)) (.refl s.files)
    steps

theorem linesTo_cons (s : Session) (node : NodeId) (now : String) (x : Step) (steps : List (String × Step)) :
    s.linesTo node ((now, x) :: steps) =
      ((s.handOver? now x).bind (HandOver.line? node)).toList ++ (s.step now x).1.linesTo node steps := by
  rw [linesTo, handOvers, List.filterMap_append, linesTo]
  cases hh : s.handOver? now x with
  | none => rfl
  | some h => cases hl : h.line? node <;> simp [hl]

theorem Grounded.gains_step (h : s.Grounded) {x : Step} (hx : ¬ Replaces x) (now : String) (node : NodeId) :
    s.files.Gains (s.step now x).1.files node
      (((s.handOver? now x).bind (HandOver.line? node)).toList.flatMap Utf8.ofText) := by
  rcases s.step_cases now x with ⟨ho, hh, hs⟩ | ⟨hh, hq⟩
  · rw [hh, hs]
    exact gains_handedOver h hh node
  · rw [hh]
    exact (hq.extends hx).gains node

theorem Grounded.gains_run (h : s.Grounded) {steps : List (String × Step)} (hx : ∀ e ∈ steps, ¬ Replaces e.2)
    (node : NodeId) : s.files.Gains (s.run steps).1.files node ((s.linesTo node steps).flatMap Utf8.ofText) := by
  induction steps generalizing s with
  | nil => exact (Files.Extends.refl s.files).gains node
  | cons e steps ih =>
    obtain ⟨he, hx⟩ := List.forall_mem_cons.1 hx
    rw [linesTo_cons, List.flatMap_append]
    exact (h.gains_step he e.1 node).trans (ih (h.step e.1 e.2) hx)

/-! ## Opening -/

/-- What comes of a request to open a log file for the sink `name`: the session afterwards, and the answer. -/
inductive Opening (s : Session) (name : String) (path : Bytes) (bound : Level) (format : LineFormat) :
    Session × Answer → Prop where
  | made {node : NodeId} {files files' : Files} (h0 : 0 ∉ path) (ho : s.files.openPath path = .ok (node, files))
      (hn : files'.nodeAt? path = some node) :
      Opening s name path bound format
        ({ s with sinks := (name, .file bound format node) :: s.sinks, files := files' }, .made)
  | failed {number : Int} {f : Fault} (h0 : 0 ∉ path) (ho : s.files.openPath path = .error number)
      (hc : f.code = -number) :
      Opening s name path bound format (s, .refused f)
  | withoutNumber {f : Fault} (h0 : 0 ∈ path) (hc : f.code = -5) : Opening s name path bound format (s, .refused f)
  /-- The logger panics on the report of the configuration, before anything is opened. -/
  | unwound {d : Diagnostic} (hd : (s.logger.emit d).2 = true) : Opening s name path bound format (s, .unwound)

variable {name : String} {path : Bytes} {bound : Level} {format : LineFormat}

theorem opening_openFile (s : Session) (name : String) (path : Bytes) (bound : Level) (format : LineFormat) :
    let r := s.addSink name (Sink.openFile s.files path bound format)
    Opening s name path bound format (r.1, r.2.1) := by
  intro r
  by_cases h0 : 0 ∈ path
  · have hr : r = s.addSink name (.error (.openFailed path .nulInPath)) := by
      simp [r, Sink.openFile, Files.openAppend, h0]
    rw [hr]
    exact .withoutNumber h0 rfl
  · cases ho : s.files.openPath path with
    | error number =>
      have hr : r = s.addSink name (.error (.openFailed path (.os number))) := by
        simp [r, Sink.openFile, Files.openAppend, h0, ho]
      rw [hr]
      exact .failed h0 ho rfl
    | ok opened =>
      have ha : s.files.openAppend path = .ok (opened.1, opened.2.watch path opened.1) := by
        simp [Files.openAppend, h0, ho]
      have hr : r = s.addSink name (.ok (.file bound format opened.1, opened.2.watch path opened.1)) := by
        simp only [r, Sink.openFile, ha]
      rw [hr]
      exact .made h0 ho (Files.openAppend_eq_ok ha).2.1

theorem Opening.report {d : Diagnostic} {next : Session × Answer × List Event}
    (h : Opening s name path bound format (next.1, next.2.1)) :
    Opening s name path bound format ((s.report d next).1, (s.report d next).2.1) := by
  unfold Session.report
  simp only
  split
  · next he => exact .unwound he
  · exact h

theorem opening_configure {c : Config} (hc : c.logFile? = some (path, bound, format)) :
    Opening s name path bound format ((s.configure name c).1, (s.configure name c).2.1) := by
  unfold Config.logFile? at hc
  split at hc
  · next p hs =>
    obtain ⟨rfl, h⟩ := Prod.mk.inj (Option.some.inj hc)
    obtain ⟨rfl, rfl⟩ := Prod.mk.inj h
    have ho : c.openSink s.files = Sink.openFile s.files p c.level c.format := by
      simp only [Config.openSink, hs]
    refine .report ?_
    rw [ho]
    exact s.opening_openFile name p c.level c.format
  · cases hc

theorem opening_makeSink {request : SinkRequest} (hr : request.logFile? = some (path, bound, format)) (now : String) :
    Opening s name path bound format
      ((s.step now (.makeSink name request)).1, (s.step now (.makeSink name request)).2.1) := by
  cases request with
  | file p b f =>
    obtain ⟨rfl, h⟩ := Prod.mk.inj (Option.some.inj hr)
    obtain ⟨rfl, rfl⟩ := Prod.mk.inj h
    exact s.opening_openFile name p b f
  | configured c => exact opening_configure hr
  | environment env =>
    obtain ⟨c, he, hc⟩ := Option.bind_eq_some_iff.1 hr
    have hstep : s.step now (.makeSink name (.environment env)) = s.configure name c := by
      show s.makeSink name (.environment env) = _
      unfold Session.makeSink
      simp only
      cases hv : Config.ofEnvironment env with
      | error f => rw [hv] at he; cases he
      | ok c' =>
        rw [hv] at he
        rw [Option.some.inj he]
    rw [hstep]
    exact opening_configure hc
  | _ => cases hr

/-- Nobody but the sinks writes to the files of the run: each file holds what it held, and behind it the lines of the
records that were admitted by the sinks over it when they were handed to them, in that order; a file that the run made
begins with them. Paths go on leading to their files, so all sinks on a path are over the same file. Opening a log file,
at any point, makes a sink over the file of the path, or fails with the negated error number, whatever that is, and does
nothing. -/
theorem files_gain_admitted_lines (h : s.Grounded) {steps : List (String × Step)}
    (hw : ∀ e ∈ steps, ¬ Replaces e.2) :
    (∀ node old, s.files.content? node = some old →
      (s.run steps).1.files.content? node = some (old ++ (s.linesTo node steps).flatMap Utf8.ofText)) ∧
    (∀ node new, s.files.content? node = none → (s.run steps).1.files.content? node = some new →
      new = (s.linesTo node steps).flatMap Utf8.ofText) ∧
    (∀ path node, s.files.nodeAt? path = some node → (s.run steps).1.files.nodeAt? path = some node) ∧
    ∀ now name request path bound format, request.logFile? = some (path, bound, format) →
      let r := (s.run steps).1.step now (.makeSink name request)
      (s.run steps).1.Opening name path bound format (r.1, r.2.1) := by
  refine ⟨fun node old ho => (h.gains_run hw node).kept old ho, fun node new ho hn => ?_, fun path node hp => ?_,
    fun now name request path bound format hr => opening_makeSink hr now⟩
  · have hg := h.gains_run hw node
    refine hg.begun (Nat.le_of_not_lt fun hlt => ?_) new hn
    rw [hg.other hlt ho] at hn
    cases hn
  · exact (s.grows_run steps).nodeAt? hp

/-- Two sinks of different formats and bounds on one path, the second opened on the way; a record that only one of them
admits, and one whose topic has a level of its own; an attempt to open nothing, and one that the system refuses. -/
theorem files_gain_admitted_lines_sharedFile :
    let s := onFile .text
    let log : Bytes := Format.ascii "log"
    let plain : Record := ⟨.info, none, "a.c", 1, "f", "one"⟩
    let quiet : Record := ⟨.debug, none, "a.c", 2, "f", "two"⟩
    let loud : Record := ⟨.trace, some (.withLevel "net" .trace), "a.c", 3, "f", "three"⟩
    let object := "\x7b\"file\":\"a.c\",\"func\":\"f\",\"level\":\"DEBUG\",\"line\":2," ++
      "\"message\":\"two\",\"time\":\"t1\",\"topic\":null\x7d\n"
    let steps : List (String × Step) :=
      [("", .makeSink "more" (.configured ⟨.file log, .debug, .json⟩)), ("t0", .hand "file" plain),
       ("t1", .hand "more" quiet), ("t2", .hand "file" quiet), ("t3", .hand "file" loud), ("", .flush "file"),
       ("", .refuse log (some 24))]
    s.Grounded ∧ (∀ e ∈ steps, ¬ Replaces e.2) ∧
      s.linesTo 16 steps =
        ["[t0][ INFO] spa: a.c:1 f(): one\n",
          object,
          "[t3][TRACE] net: a.c:3 f(): three\n"] ∧
      (s.run steps).1.files.content? 16 =
        some (Format.ascii "old\n" ++ (s.linesTo 16 steps).flatMap Utf8.ofText) ∧
      (s.run steps).1.files.nodeAt? log = some 16 ∧
      (s.run steps).1.files.openPath log = .error 24 ∧
      ∀ path,
        let r := (s.run steps).1.step "" (.makeSink "none" (.file path .info .text))
        (s.run steps).1.Opening "none" path .info .text (r.1, r.2.1) := by
  intro s log plain quiet loud object steps
  have hg : s.Grounded := grounded_initial.run _
  have hw : ∀ e ∈ steps, ¬ Replaces e.2 := by simp [steps, Replaces]
  obtain ⟨hk, -, hp, ho⟩ := files_gain_admitted_lines hg hw
  have hlines : s.linesTo 16 steps =
      [LineFormat.text.line plain "t0", LineFormat.json.line quiet "t1", LineFormat.text.line loud "t3"] := rfl
  have hopening (path : Bytes) := ho "" "none" (.file path .info .text) path .info .text rfl
  have hplain : LineFormat.text.line plain "t0" = "[t0][ INFO] spa: a.c:1 f(): one\n" := by decide
  have hquiet : LineFormat.json.line quiet "t1" = object := by decide +kernel
  have hloud : LineFormat.text.line loud "t3" = "[t3][TRACE] net: a.c:3 f(): three\n" := by decide
  rw [hplain, hquiet, hloud] at hlines
  exact ⟨hg, hw, hlines, hk 16 _ (content?_onFile .text), hp log 16 rfl, rfl, hopening⟩

end Session
end LogRelay
