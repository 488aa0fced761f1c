import LogRelay.Proofs.Session.Wired

/-!
# Logging to a file

What a run of records leaves in the file of a sink: the old content, then the line of each record that the sink's bound
enables, in their order. Whole lines behind whole lines can be split off again.
-/

namespace LogRelay

/-! ## Lines -/

theorem length_splitOn {α : Type} [BEq α] (a : α) (l : List α) : (l.splitOn a).length = l.count a + 1 := by
  induction l with
  | nil => rfl
  | cons b l ih =>
    rw [List.splitOn_cons_eq_if_modifyHead, List.count_cons]
    split
    · rw [List.length_cons, ih]
    · rw [List.length_modifyHead, ih]

theorem not_mem_of_mem_splitOn {α : Type} [BEq α] [LawfulBEq α] {a : α} {l piece : List α} (h : piece ∈ l.splitOn a) :
    a ∉ piece := by
  induction l generalizing piece with
  | nil =>
    rw [List.splitOn_nil, List.mem_singleton] at h
    simp [h]
  | cons b l ih =>
    rw [List.splitOn_cons_eq_if_modifyHead] at h
    split at h
    · rcases List.mem_cons.1 h with rfl | h
      · exact List.not_mem_nil
      · exact ih h
    · next hb =>
      obtain ⟨first, rest, hl⟩ := List.exists_cons_of_ne_nil (List.splitOn_ne_nil a l)
      rw [hl, List.modifyHead_cons] at h
      rcases List.mem_cons.1 h with rfl | h
      · have hfirst : a ∉ first := ih (hl ▸ List.mem_cons_self)
        have hne : a ≠ b := fun he => hb (beq_iff_eq.2 he.symm)
        simp [hfirst, hne]
      · exact ih (hl ▸ List.mem_cons_of_mem _ h)

/-- Texts that each get a newline at their end, behind content that ends in one, are split each for itself. -/
theorem splitOn_append_texts {old : Bytes} (ho : old = [] ∨ old.getLast? = some 10) (texts : List Bytes) :
    (old ++ texts.flatMap (· ++ [10])).splitOn 10 =
      (old.splitOn 10).dropLast ++ texts.flatMap (·.splitOn 10) ++ [[]] := by
  have htexts : (texts.flatMap (· ++ [10])).splitOn 10 = texts.flatMap (·.splitOn 10) ++ [[]] := by
    induction texts with
    | nil => exact List.splitOn_nil 10
    | cons text texts ih =>
      rw [List.flatMap_cons, List.append_assoc, List.singleton_append, List.splitOn_append_cons_self, ih,
        List.flatMap_cons, List.append_assoc]
  rcases ho with rfl | ho
  · rw [List.nil_append, htexts, List.splitOn_nil]
    rfl
  · obtain ⟨front, rfl⟩ := List.getLast?_eq_some_iff.1 ho
    rw [List.append_assoc, List.singleton_append, List.splitOn_append_cons_self, List.splitOn_append_cons_self, htexts,
      List.splitOn_nil, List.dropLast_concat, List.append_assoc]

theorem flatMap_splitOn_eq_self {lines : List Bytes} :
    lines.flatMap (·.splitOn 10) = lines ↔ ∀ line ∈ lines, 10 ∉ line := by
  constructor
  · intro h line hline
    rw [← h] at hline
    obtain ⟨text, -, hpiece⟩ := List.mem_flatMap.1 hline
    exact not_mem_of_mem_splitOn hpiece
  · intro h
    induction lines with
    | nil => rfl
    | cons line lines ih =>
      obtain ⟨hline, h⟩ := List.forall_mem_cons.1 h
      rw [List.flatMap_cons, List.splitOn_eq_singleton hline, ih h, List.singleton_append]

/-- Lines that end in a newline, behind content that ends in one, are split off as they are. -/
theorem splitOn_append_lines {old : Bytes} (ho : old = [] ∨ old.getLast? = some 10) {lines : List Bytes}
    (hl : ∀ line ∈ lines, 10 ∉ line) :
    (old ++ lines.flatMap (· ++ [10])).splitOn 10 = (old.splitOn 10).dropLast ++ lines ++ [[]] := by
  rw [splitOn_append_texts ho, flatMap_splitOn_eq_self.2 hl]

/-! ## Runs -/

namespace Session

variable {s : Session}

theorem step_hand {name : String} {sink : Sink} (hs : s.sinks.lookup name = some sink) (now : String) (r : Record) :
    (s.step now (.hand name r)).1 =
      { s.setSink name (sink.accept s.logger s.files now r).sink with
        files := (sink.accept s.logger s.files now r).files } := by
  show (s.withNamed s.sinks name _).1 = _
  simp only [withNamed, hs]
  rfl

/-- One record adds its line if the bound enables it, and the sink stays as it is. -/
theorem hand_file {name : String} {bound : Level} {format : LineFormat} {node : NodeId}
    (hs : s.sinks.lookup name = some (.file bound format node)) (now : String) (r : Record) :
    (s.step now (.hand name r)).1.sinks.lookup name = some (.file bound format node) ∧
      (s.step now (.hand name r)).1.files.content? node =
        (s.files.content? node).map (· ++ if r.isEnabled bound then Utf8.ofText (format.line r now) else []) := by
  have hk : ((Sink.file bound format node).accept s.logger s.files now r).sink = .file bound format node := by
    unfold Sink.accept
    simp only
    split <;> rfl
  rw [step_hand hs]
  refine ⟨?_, ?_⟩
  · show (s.setSink name _).sinks.lookup name = _
    rw [lookup_setSink, if_pos rfl, hs, hk, Option.map_some]
  · show ((Sink.file bound format node).accept s.logger s.files now r).files.content? node = _
    unfold Sink.accept
    simp only
    split
    · exact Files.content?_append _ _ _
    · simp [Sink.ignore]

/-- The lines that a file sink writes of records, each at its time. -/
def fileLines (bound : Level) (format : LineFormat) (log : List (String × Record)) : List String :=
  (log.filter fun e => e.2.isEnabled bound).map fun e => format.line e.2 e.1

/-- The bytes of lines that are bodies with a newline behind each. -/
theorem flatMap_fileLines_of_bodies {format : LineFormat} {body : Record → String → Bytes}
    (hb : ∀ r now, Utf8.ofText (format.line r now) = body r now ++ [10]) (bound : Level) (log : List (String × Record)) :
    (fileLines bound format log).flatMap Utf8.ofText =
      ((log.filter fun e => e.2.isEnabled bound).map fun e => body e.2 e.1).flatMap (· ++ [10]) := by
  simp only [fileLines, List.flatMap_map, hb]

theorem run_hand {name : String} {bound : Level} {format : LineFormat} {node : NodeId} (log : List (String × Record))
    (hs : s.sinks.lookup name = some (.file bound format node)) :
    (s.run (log.map fun e => (e.1, .hand name e.2))).1.files.content? node =
      (s.files.content? node).map (· ++ (fileLines bound format log).flatMap Utf8.ofText) := by
  induction log generalizing s with
  | nil =>
    show s.files.content? node = _
    simp [fileLines]
  | cons e log ih =>
    obtain ⟨hs', hf⟩ := hand_file hs e.1 e.2
    show ((s.step e.1 (.hand name e.2)).1.run (log.map fun e => (e.1, .hand name e.2))).1.files.content? node = _
    rw [ih hs', hf, Option.map_map]
    congr 1
    funext old
    rw [Function.comp_apply, List.append_assoc, fileLines, fileLines, List.filter_cons]
    split
    · rw [List.map_cons, List.flatMap_cons]
    · rw [List.nil_append]

/-- A session with one sink, over a file that has a line already. -/
def onFile (format : LineFormat) : Session :=
  (initial.run [("", .replaceFile (Format.ascii "log") (Format.ascii "old\n")),
    ("", .makeSink "file" (.file (Format.ascii "log") .info format))]).1

theorem lookup_onFile (format : LineFormat) : (onFile format).sinks.lookup "file" = some (.file .info format 16) := rfl

theorem content?_onFile (format : LineFormat) : (onFile format).files.content? 16 = some (Format.ascii "old\n") := rfl

end Session
end LogRelay
