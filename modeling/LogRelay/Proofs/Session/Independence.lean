import Mathlib.Data.List.Forall2
import LogRelay.Proofs.Blanking
import LogRelay.Proofs.Session.Without

/-!
# Independence

Logging to one sink and logging to another commute, but for the files: two sinks may be over one file, which then has its
lines in another order. What a file holds decides nothing later, and neither does what a sink has received for those who
do not come to it. So `Alike` sessions, which differ in nothing else, stay alike and show the same as long as nobody comes
to a sink in which they differ.
-/

namespace LogRelay

theorem Reaction.blank_filed (a : Reaction) (files : Files) : (a.filed files).blank = files.blank := by
  unfold filed
  split
  · exact files.blank_append _ _
  · rfl

namespace Session

variable {s s' : Session} {x y : Step} {differs : String → Prop}

/-- The sessions differ at most in what the files hold and in the sinks of some names. -/
structure Alike (differs : String → Prop) (s s' : Session) : Prop where
  rest : s' = { s with sinks := s'.sinks, files := s'.files }
  sinks : List.Forall₂ (fun e e' => e'.1 = e.1 ∧ (¬ differs e.1 → e' = e)) s.sinks s'.sinks
  blank : s'.files.blank = s.files.blank

theorem Alike.refl (s : Session) : Alike differs s s := ⟨rfl, List.forall₂_same.2 fun _ _ => ⟨rfl, fun _ => rfl⟩, rfl⟩

theorem Alike.exists_parts (h : Alike differs s s') :
    ∃ sinks files, s' = { s with sinks := sinks, files := files } ∧
      List.Forall₂ (fun e e' => e'.1 = e.1 ∧ (¬ differs e.1 → e' = e)) s.sinks sinks ∧ files.blank = s.files.blank :=
  ⟨s'.sinks, s'.files, h.rest, h.sinks, h.blank⟩

theorem Alike.logger (h : Alike differs s s') : s'.logger = s.logger := by rw [h.rest]

theorem Alike.watched (h : Alike differs s s') : s'.files.watched = s.files.watched := by
  have hw : s'.files.blank.watched = s.files.blank.watched := congrArg Files.watched h.blank
  exact hw

theorem Alike.lookup (h : Alike differs s s') (name : String) :
    (s'.sinks.lookup name).isSome = (s.sinks.lookup name).isSome ∧
      (¬ differs name → s'.sinks.lookup name = s.sinks.lookup name) := by
  have hs := h.sinks
  generalize s.sinks = table at hs
  generalize s'.sinks = table' at hs
  induction hs with
  | nil => exact ⟨rfl, fun _ => rfl⟩
  | @cons e e' table table' he _ ih =>
    obtain ⟨hname, hsame⟩ := he
    rw [List.lookup_cons, List.lookup_cons, hname]
    by_cases hn : name = e.1
    · rw [beq_iff_eq.2 hn]
      exact ⟨rfl, fun hd => by rw [hsame (hn ▸ hd)]⟩
    · rw [beq_false_of_ne hn]
      exact ih

theorem Alike.lookup_cases (h : Alike differs s s') (name : String) :
    (s.sinks.lookup name = none ∧ s'.sinks.lookup name = none) ∨
      ∃ sink sink', s.sinks.lookup name = some sink ∧ s'.sinks.lookup name = some sink' := by
  have hl := (h.lookup name).1
  cases hs : s.sinks.lookup name <;> cases hs' : s'.sinks.lookup name
  · exact .inl ⟨rfl, rfl⟩
  · simp [hs, hs'] at hl
  · simp [hs, hs'] at hl
  · exact .inr ⟨_, _, rfl, rfl⟩

/-! ## Alike sessions stay alike -/

theorem blank_handedOver (s : Session) (h : HandOver) : (s.handedOver h).files.blank = s.files.blank := by
  show (s.reaction h).files.blank = _
  rw [s.reaction_congr rfl h]
  exact Reaction.blank_filed _ _

/-- What a record does to the sinks when it is handed over depends on nothing else. -/
theorem sinks_handedOver (s : Session) (h : HandOver) :
    (s.handedOver h).sinks = s.sinks.map fun e => if e.1 = h.name then (h.name, h.sink.after h.record) else e := by
  rw [← Sink.sink_accept h.sink s.logger s.files h.now h.record]
  rfl

/-- Handing a record over changes at most the sink that it comes to. -/
theorem alike_handedOver (s : Session) (h : HandOver) : Alike (· = h.name) s (s.handedOver h) := by
  refine ⟨rfl, ?_, s.blank_handedOver h⟩
  rw [sinks_handedOver, List.forall₂_map_right_iff]
  refine List.forall₂_same.2 fun e _ => ?_
  split
  · next hn => exact ⟨hn.symm, fun hne => absurd hn hne⟩
  · exact ⟨rfl, fun _ => rfl⟩

theorem Alike.handedOver (ha : Alike differs s s') (h : HandOver) :
    Alike differs (s.handedOver h) (s'.handedOver h) := by
  obtain ⟨sinks, files, rfl, hs, hb⟩ := ha.exists_parts
  refine ⟨rfl, ?_, ?_⟩
  · rw [sinks_handedOver, sinks_handedOver, List.forall₂_map_left_iff, List.forall₂_map_right_iff]
    refine hs.imp fun {e e'} ⟨hname, hsame⟩ => ?_
    rw [hname]
    split
    · exact ⟨rfl, fun _ => rfl⟩
    · exact ⟨hname, hsame⟩
  · rw [blank_handedOver, blank_handedOver]
    exact hb

theorem Alike.handOver? (ha : Alike differs s s') (hx : ∀ name, s.sinkOf? x = some name → ¬ differs name)
    (now : String) : s'.handOver? now x = s.handOver? now x := by
  have hh : s'.handed? x = s.handed? x := by
    rw [ha.rest]
    rfl
  rw [Session.handOver?, hh, Session.handOver?]
  cases hd : s.handed? x with
  | none => rfl
  | some a =>
    have hl := (ha.lookup a.1).2 (hx a.1 (by rw [sinkOf?, hd, Option.map_some]))
    rw [Option.bind_some, Option.bind_some, hl]

theorem Alike.addSink {name : String} {made made' : Except Fault (Sink × Files)} (ha : Alike differs s s')
    (hm : made'.map (fun m => (m.1, m.2.blank)) = made.map fun m => (m.1, m.2.blank)) :
    Matches (Alike differs) (s.addSink name made) (s'.addSink name made') := by
  obtain ⟨sinks, files, rfl, hs, hb⟩ := ha.exists_parts
  cases made with
  | error f =>
    cases made' with
    | error f' =>
      cases Except.error.inj hm
      exact ⟨ha, rfl⟩
    | ok m' => cases hm
  | ok m =>
    cases made' with
    | error f' => cases hm
    | ok m' =>
      obtain ⟨hsink, hfiles⟩ := Prod.mk.inj (Except.ok.inj hm)
      obtain ⟨sink, _⟩ := m
      obtain ⟨sink', _⟩ := m'
      obtain rfl : sink' = sink := hsink
      exact ⟨⟨rfl, .cons ⟨rfl, fun _ => rfl⟩ hs, hfiles⟩, rfl⟩

theorem Alike.openFile {files : Files} (hb : files.blank = s.files.blank) (path : Bytes) (bound : Level)
    (format : LineFormat) :
    (Sink.openFile files path bound format).map (fun m => (m.1, m.2.blank)) =
      (Sink.openFile s.files path bound format).map fun m => (m.1, m.2.blank) := by
  have key (f : Files) : (Sink.openFile f path bound format).map (fun m => (m.1, m.2.blank)) =
      Sink.openFile f.blank path bound format := by
    unfold Sink.openFile
    rw [Files.openAppend_blank]
    cases f.openAppend path <;> rfl
  rw [key, key, hb]

theorem Alike.configure (ha : Alike differs s s') (name : String) (c : Config) :
    Matches (Alike differs) (s.configure name c) (s'.configure name c) := by
  refine .report ha ha.logger (ha.addSink ?_)
  unfold Config.openSink
  split
  · simp [Except.map, ha.blank]
  · simp [Except.map, ha.blank]
  · exact openFile ha.blank _ _ _

theorem Alike.makeSink (ha : Alike differs s s') (name : String) (request : SinkRequest) :
    Matches (Alike differs) (s.makeSink name request) (s'.makeSink name request) := by
  cases request with
  | file path bound format => exact ha.addSink (openFile ha.blank path bound format)
  | configured c => exact ha.configure name c
  | environment env =>
    unfold Session.makeSink
    simp only
    split
    · exact ha.configure name _
    · exact ⟨ha, rfl⟩
  | _ =>
    obtain ⟨sinks, files, rfl, hs, hb⟩ := ha.exists_parts
    exact ⟨⟨rfl, .cons ⟨rfl, fun _ => rfl⟩ hs, hb⟩, rfl⟩

theorem Alike.makeInterface (ha : Alike differs s s') (name sink : String) (level : Level) :
    Matches (Alike differs) (s.makeInterface name sink level) (s'.makeInterface name sink level) := by
  unfold Session.makeInterface
  rcases ha.lookup_cases sink with ⟨hk, hk'⟩ | ⟨k, k', hk, hk'⟩
  · rw [hk, hk']
    exact ⟨ha, rfl⟩
  · rw [hk, hk']
    have hlogger := ha.logger
    obtain ⟨sinks, files, rfl, hs, hb⟩ := ha.exists_parts
    exact .report ha hlogger ⟨⟨rfl, hs, hb⟩, rfl⟩

theorem Alike.flush (ha : Alike differs s s') (now sink : String) :
    Matches (Alike differs) (s.step now (.flush sink)) (s'.step now (.flush sink)) := by
  show Matches _ (s.withNamed s.sinks sink fun _ => (s, .done, [])) (s'.withNamed s'.sinks sink fun _ => (s', .done, []))
  unfold Session.withNamed
  rcases ha.lookup_cases sink with ⟨hk, hk'⟩ | ⟨k, k', hk, hk'⟩
  · rw [hk, hk']
    exact ⟨ha, rfl⟩
  · rw [hk, hk']
    exact ⟨ha, rfl⟩

theorem Alike.connectHandle (ha : Alike differs s s') (name : String) (origin : Option String) (h : Option Handle) :
    Matches (Alike differs) (s.connectHandle name origin h) (s'.connectHandle name origin h) := by
  unfold Session.connectHandle
  split
  · obtain ⟨sinks, files, rfl, hs, hb⟩ := ha.exists_parts
    exact ⟨⟨rfl, hs, hb⟩, rfl⟩
  · exact .report ha ha.logger ⟨ha, rfl⟩
  · exact ⟨ha, rfl⟩

theorem Alike.withNamed {α : Type} {table : List (String × α)} {name : String}
    {next next' : α → Session × Answer × List Event} (ha : Alike differs s s')
    (h : ∀ a, table.lookup name = some a → Matches (Alike differs) (next a) (next' a)) :
    Matches (Alike differs) (s.withNamed table name next) (s'.withNamed table name next') :=
  Matches.withNamed (f := id) ha (by rw [Option.map_id_apply]) h

theorem Alike.step (ha : Alike differs s s') (now : String)
    (hx : ∀ name, s.sinkOf? x = some name → ¬ differs name) :
    Matches (Alike differs) (s.step now x) (s'.step now x) := by
  have hlogs (hlog : Logs x) : Matches (Alike differs) (s.step now x) (s'.step now x) :=
    matches_logs ha ha.logger ha.watched hlog (by rw [ha.rest]; rfl) (ha.handOver? hx now)
      fun d _ => ha.handedOver d
  have hhand (name : String) : ¬ differs name → s'.sinks.lookup name = s.sinks.lookup name := (ha.lookup name).2
  have hlogger := ha.logger
  have hwatched := ha.watched
  obtain ⟨sinks, files, rfl, hs, hb⟩ := ha.exists_parts
  cases x with
  | call on route c => exact hlogs trivial
  | send client r => exact hlogs trivial
  | guarded client g => exact hlogs trivial
  | makeSink name request => exact ha.makeSink name request
  | makeInterface name sink level => exact ha.makeInterface name sink level
  | copyHandle name interface alteration => exact ha.withNamed fun i _ => ⟨⟨rfl, hs, hb⟩, rfl⟩
  | destroy interface => exact ha.withNamed fun i _ => ⟨⟨rfl, hs, hb⟩, rfl⟩
  | ownClient name interface => exact ha.withNamed fun i _ => ⟨⟨rfl, hs, hb⟩, rfl⟩
  | connect name on =>
    cases on with
    | none => exact ⟨ha, rfl⟩
    | some on =>
      have hl : Session.handle? { s with sinks := sinks, files := files } on = s.handle? on := rfl
      simp only [Session.step, withHandle, hl]
      cases s.handle? on with
      | none => exact ⟨ha, rfl⟩
      | some h => exact ha.connectHandle name h.origin (some h.value)
  | levelEnabled client level topic => exact ha.withNamed fun _ _ => ⟨ha, rfl⟩
  | hand name r =>
    exact matches_hand ha hlogger hwatched (hhand name (hx name rfl)) fun d _ => ha.handedOver d
  | flush sink => exact ha.flush now sink
  | replaceFile path content =>
    refine ⟨⟨rfl, hs, ?_⟩, rfl⟩
    show (files.replace path content).blank = (s.files.replace path content).blank
    rw [← Files.replace_blank, hb, Files.replace_blank]
  | makeDirectory path =>
    refine ⟨⟨rfl, hs, ?_⟩, rfl⟩
    show (files.makeDirectory path).blank = (s.files.makeDirectory path).blank
    rw [← Files.makeDirectory_blank, hb, Files.makeDirectory_blank]
  | refuse path number =>
    refine ⟨⟨rfl, hs, ?_⟩, rfl⟩
    show (files.refuse path number).blank = (s.files.refuse path number).blank
    rw [← Files.refuse_blank, hb, Files.refuse_blank]
  | setBound bound => exact ⟨⟨rfl, hs, hb⟩, rfl⟩

/-- Alike sessions stay alike and show the same as long as nobody comes to a sink in which they differ. -/
theorem Alike.run (ha : Alike differs s s') {steps : List (String × Step)}
    (hs : s.Along (fun t x => ∀ name, t.sinkOf? x = some name → ¬ differs name) steps) :
    Alike differs (s.run steps).1 (s'.run steps).1 ∧ (s'.run steps).2 = (s.run steps).2 :=
  matches_run (fun _ _ now _ ha hx => ha.step now hx) ha hs

/-- Whatever happens later, logging is noticed by nobody who does not come to the same sink. -/
theorem unnoticed_logging (s : Session) (now : String) (hy : Logs y) :
    let logged := (s.step now y).1
    ∀ steps, s.Along (fun t x => ∀ name, t.sinkOf? x = some name → s.sinkOf? y ≠ some name) steps →
      (logged.run steps).2 = (s.run steps).2 ∧
        ∀ name, s.sinkOf? y ≠ some name →
          (logged.run steps).1.sinks.lookup name = (s.run steps).1.sinks.lookup name := by
  intro logged steps hs
  cases hh : s.handOver? now y with
  | none =>
    have hlogged : logged = s := (step_of_not_handed hy hh).1
    rw [hlogged]
    exact ⟨rfl, fun _ _ => rfl⟩
  | some d =>
    have hlogged : logged = s.handedOver d := step_of_handOver hh
    have hsink : s.sinkOf? y = some d.name := sinkOf?_of_handOver hh
    have hdiffer (name : String) : s.sinkOf? y ≠ some name ↔ name ≠ d.name := by simp [hsink, eq_comm]
    simp only [hdiffer] at hs ⊢
    obtain ⟨hend, hseen⟩ := (s.alike_handedOver d).run hs
    rw [hlogged]
    exact ⟨hseen, fun name => (hend.lookup name).2⟩

/-! ## Swapping -/

/-- Where no sink differs, the sinks are the same. -/
theorem Alike.sinks_eq (h : Alike (fun _ => False) s s') : s'.sinks = s.sinks := by
  have heq : List.Forall₂ (· = ·) s.sinks s'.sinks := h.sinks.imp fun {_ _} he => (he.2 not_false).symm
  rw [List.forall₂_eq_eq_eq] at heq
  exact heq.symm

theorem alike_handedOver_comm (s : Session) {h h' : HandOver} (hne : h.name ≠ h'.name) :
    Alike (fun _ => False) ((s.handedOver h).handedOver h') ((s.handedOver h').handedOver h) := by
  have hsinks : ((s.handedOver h').handedOver h).sinks = ((s.handedOver h).handedOver h').sinks := by
    simp only [sinks_handedOver, List.map_map]
    refine List.map_congr_left fun e _ => ?_
    by_cases hn : e.1 = h.name
    · simp [hn, hne]
    · by_cases hn' : e.1 = h'.name <;> simp [hn, hn', Ne.symm hne]
  refine ⟨rfl, ?_, by simp only [blank_handedOver]⟩
  rw [hsinks]
  exact List.forall₂_same.2 fun _ _ => ⟨rfl, fun _ => rfl⟩

/-- Logging to different sinks commutes, but for the files. -/
theorem alike_swapped (s : Session) (now now' : String) (hx : Logs x) (hy : Logs y)
    (hne : ∀ name, s.sinkOf? x = some name → s.sinkOf? y ≠ some name) :
    Alike (fun _ => False) ((s.step now x).1.step now' y).1 ((s.step now' y).1.step now x).1 := by
  cases hh : s.handOver? now x with
  | none =>
    have hxs := (step_of_not_handed hx hh).1
    rw [hxs]
    cases hh' : s.handOver? now' y with
    | none =>
      rw [(step_of_not_handed hy hh').1, hxs]
      exact .refl s
    | some h' =>
      have hsy : s.sinkOf? y = some h'.name := sinkOf?_of_handOver hh'
      have hlater : (s.handedOver h').handOver? now x = none := by
        rw [(s.alike_handedOver h').handOver? (fun name hn he => hne name hn (he ▸ hsy)) now, hh]
      rw [step_of_handOver hh', (step_of_not_handed hx hlater).1]
      exact .refl _
  | some h =>
    have hsx : s.sinkOf? x = some h.name := sinkOf?_of_handOver hh
    have hlater' : (s.handedOver h).handOver? now' y = s.handOver? now' y :=
      (s.alike_handedOver h).handOver? (fun name hn he => hne h.name hsx (he ▸ hn)) now'
    rw [step_of_handOver hh]
    cases hh' : s.handOver? now' y with
    | none =>
      rw [(step_of_not_handed hy (hlater'.trans hh')).1, (step_of_not_handed hy hh').1, step_of_handOver hh]
      exact .refl _
    | some h' =>
      have hsy : s.sinkOf? y = some h'.name := sinkOf?_of_handOver hh'
      have hlater : (s.handedOver h').handOver? now x = some h := by
        rw [(s.alike_handedOver h').handOver? (fun name hn he => hne name hn (he ▸ hsy)) now, hh]
      rw [step_of_handOver (hlater'.trans hh'), step_of_handOver hh', step_of_handOver hlater]
      exact s.alike_handedOver_comm fun he => hne h.name hsx (he ▸ hsy)

/-- What is delivered arrives, as it is, at the sink of the interface that it was sent through, and a recorder receives
what is brought to it, in order, and nothing else. Making an interface under a new name, or ending one, changes no sink,
and nothing for those who go through others, now or later: until somebody is about this interface, all that is answered
and shown and all that the sinks receive is as it would have been. Logging changes the one sink that it comes to, and
nothing for those who do not come to this sink, however long they go on. So logging to different sinks can be swapped: no
sink can tell, and nobody who comes later. -/
theorem histories_are_independent (h : Rooted s) :
    (∀ now x, Logs x → (s.delivery? x = none → s.handOver? now x = none) ∧
      ∀ d, s.delivery? x = some d → ∃ o i sink, s.through? x = some o ∧ i ∈ s.interfaces ∧ o.value.From o.origin i ∧
        s.sinks.lookup i.2.sink = some sink ∧ s.handOver? now x = some ⟨now, i.2.sink, sink, d.record⟩) ∧
    (∀ name steps, s.MakesAnew name steps →
      (s.run steps).1.history name = s.history name ++ s.recordsTo name steps) ∧
    (∀ now name sink level, s.handle? name = none →
      let made := (s.step now (.makeInterface name sink level)).1
      made.sinks = s.sinks ∧ (∀ x, (s.through? x).isSome → s.SameConduct made x) ∧
        ∀ steps, made.Along (fun t x => t.about? x ≠ some name) steps →
          (made.run steps).2 = (s.run steps).2 ∧ (made.run steps).1.sinks = (s.run steps).1.sinks) ∧
    (∀ now name,
      let left := (s.step now (.destroy name)).1
      left.sinks = s.sinks ∧ (∀ x o, s.through? x = some o → o.origin ≠ some name → s.SameConduct left x) ∧
        ∀ steps, s.Along (fun t x => t.about? x ≠ some name) steps →
          (left.run steps).2 = (s.run steps).2 ∧ (left.run steps).1.sinks = (s.run steps).1.sinks) ∧
    (∀ now y, Logs y →
      let logged := (s.step now y).1
      (∀ name, s.sinkOf? y ≠ some name → logged.sinks.lookup name = s.sinks.lookup name) ∧
        (∀ x, (s.through? x).isSome → (∀ name, s.sinkOf? x = some name → s.sinkOf? y ≠ some name) →
          s.SameConduct logged x) ∧
        ∀ steps, s.Along (fun t x => ∀ name, t.sinkOf? x = some name → s.sinkOf? y ≠ some name) steps →
          (logged.run steps).2 = (s.run steps).2 ∧
            ∀ name, s.sinkOf? y ≠ some name →
              (logged.run steps).1.sinks.lookup name = (s.run steps).1.sinks.lookup name) ∧
    ∀ now now' x y, Logs x → Logs y → (∀ name, s.sinkOf? x = some name → s.sinkOf? y ≠ some name) → ∀ steps,
      (s.run ((now, x) :: (now', y) :: steps)).1.sinks = (s.run ((now', y) :: (now, x) :: steps)).1.sinks ∧
        (s.run ((now, x) :: (now', y) :: steps)).2.drop 2 = (s.run ((now', y) :: (now, x) :: steps)).2.drop 2 := by
  have ha := h.anchored
  refine ⟨fun now x hx => ⟨fun hd => ?_, fun d hd => ha.arrives hd now⟩, fun name steps hm => history_run hm,
    fun now name sink level hn => ?_, fun now name => ?_, fun now y hy => ?_, fun now now' x y hx hy hne steps => ?_⟩
  · rw [handOver?, handed?_of_logs hx, hd]
    rfl
  · intro made
    have hq : Quiet s _ made := quiet_step rfl
    obtain ⟨hk, hs⟩ := ha.keeps_makeInterface hn hq
    refine ⟨hs, fun x ho => ?_, ha.unnoticed_made now sink level hn⟩
    obtain ⟨o, ho⟩ := Option.isSome_iff_exists.1 ho
    exact hk.sameConduct ha ho trivial fun name _ => by rw [hs]
  · intro left
    have hq : Quiet s _ left := quiet_step rfl
    obtain ⟨hk, hs⟩ := ha.keeps_destroy hq
    exact ⟨hs, fun x o ho hn => hk.sameConduct ha ho hn fun name _ => by rw [hs], ha.unnoticed_end now⟩
  · intro logged
    obtain ⟨hk, hs⟩ := s.keeps_logging now hy
    refine ⟨hs, fun x ho hne => ?_, s.unnoticed_logging now hy⟩
    obtain ⟨o, ho⟩ := Option.isSome_iff_exists.1 ho
    exact hk.sameConduct ha ho trivial fun name hn => hs name (hne name hn)
  · have hrun := (s.alike_swapped now now' hx hy hne).run (along_of_forall (fun _ _ _ _ => not_false) steps)
    exact ⟨hrun.1.sinks_eq.symm, hrun.2.symm⟩

/-- Two interfaces, one over a recorder and one over a recorder that panics on all it gets; a host with a table too old
for its helpers, and a client. -/
def twoSinks : Session :=
  (initial.run [("", .makeSink "a" .recorder), ("", .makeSink "b" .panicking), ("", .makeInterface "main" "a" .info),
    ("", .makeInterface "other" "b" .debug), ("", .copyHandle "host" "main" ⟨0, true, false, false, true, some 9⟩),
    ("", .ownClient "client" "other")]).1

def fiveOnNet : Call :=
  ⟨3, some ⟨0, some (Format.ascii "net"), 7, 1⟩, none, 1, none, some (Format.ascii "%d"), [.word 5]⟩

def plainText : Record := ⟨.trace, none, "a.c", 1, "f", "text"⟩

/-- A third interface is made on the way, and one is ended, which silences its host. -/
def twoSinksSteps : List (String × Step) :=
  [("", .call (some "host") (.direct .logt) fiveOnNet), ("", .call (some "host") (.helper .logt) fiveOnNet),
    ("", .send "client" plainText), ("", .makeInterface "more" "a" .off),
    ("", .call (some "more") (.table .log) fiveOnNet), ("", .destroy "main"),
    ("", .call (some "host") (.direct .logt) fiveOnNet)]

/-- A second client and a second host of the other interface. -/
def otherSteps : List (String × Step) :=
  [("", .ownClient "second" "other"), ("", .copyHandle "copy" "other" ⟨0, true, false, false, false, none⟩),
    ("", .call (some "copy") (.direct .log) fiveOnNet), ("", .send "second" plainText)]

theorem histories_are_independent_twoSinks :
    let sent : Step := .send "client" plainText
    let called : Step := .call (some "host") (.direct .logt) fiveOnNet
    Rooted twoSinks ∧ twoSinks.MakesAnew "a" twoSinksSteps ∧
      (twoSinks.run twoSinksSteps).1.history "a" = [fiveOnNet.record, fiveOnNet.withoutTopic.record] ∧
      twoSinks.SameConduct (twoSinks.step "" (.destroy "main")).1 sent ∧
      ((twoSinks.step "" (.makeInterface "new" "a" .info)).1.run otherSteps).2 = (twoSinks.run otherSteps).2 ∧
      ((twoSinks.step "" (.destroy "main")).1.run otherSteps).2 = (twoSinks.run otherSteps).2 ∧
      ((twoSinks.step "" called).1.run otherSteps).2 = (twoSinks.run otherSteps).2 ∧
      (twoSinks.run otherSteps).2.map Prod.fst = [.connected (some .debug), .made, .done, .done] ∧
      (twoSinks.run (("t", sent) :: ("t'", called) :: twoSinksSteps)).1.sinks =
        (twoSinks.run (("t'", called) :: ("t", sent) :: twoSinksSteps)).1.sinks := by
  intro sent called
  have h : Rooted twoSinks := rooted_initial.run _
  obtain ⟨-, hhistory, hmade, hleft, hlogged, hswap⟩ := histories_are_independent h
  have hm : twoSinks.MakesAnew "a" twoSinksSteps := by simp [twoSinksSteps, MakesAnew, Step.made?]
  have hreceived : twoSinks.history "a" ++ twoSinks.recordsTo "a" twoSinksSteps =
      [fiveOnNet.record, fiveOnNet.withoutTopic.record] := rfl
  have hthrough : twoSinks.through? sent = some ⟨some "other", .own 2 .debug⟩ := rfl
  have apart (t : Session) (x : Step) (hx : t.sinkOf? x ≠ twoSinks.sinkOf? called) :
      ∀ name, t.sinkOf? x = some name → twoSinks.sinkOf? called ≠ some name := fun _ hn he => hx (hn.trans he.symm)
  have hnew : (twoSinks.step "" (.makeInterface "new" "a" .info)).1.Along (fun t x => t.about? x ≠ some "new")
      otherSteps := ⟨by decide, by decide, by decide, by decide, trivial⟩
  have hother : twoSinks.Along (fun t x => t.about? x ≠ some "main") otherSteps :=
    ⟨by decide, by decide, by decide, by decide, trivial⟩
  have hapart : twoSinks.Along (fun t x => ∀ name, t.sinkOf? x = some name → twoSinks.sinkOf? called ≠ some name)
      otherSteps :=
    ⟨apart _ _ (by decide), apart _ _ (by decide), apart _ _ (by decide), apart _ _ (by decide), trivial⟩
  exact ⟨h, hm, (hhistory "a" twoSinksSteps hm).trans hreceived, (hleft "" "main").2.1 sent _ hthrough (by decide),
    ((hmade "" "new" "a" .info rfl).2.2 otherSteps hnew).1, ((hleft "" "main").2.2 otherSteps hother).1,
    ((hlogged "" called trivial).2.2 otherSteps hapart).1, rfl,
    (hswap "t" "t'" sent called trivial trivial (apart _ _ (by decide)) twoSinksSteps).1⟩

end Session
end LogRelay
