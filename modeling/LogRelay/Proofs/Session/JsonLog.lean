import LogRelay.Proofs.Session.FileLog
import LogRelay.Proofs.Sink.Line
import Mathlib.Data.List.Forall2

/-!
# Reading a JSON log back

In JSON format the file of a sink has one line for each record, and every line is read as the object of that record,
whatever characters its texts hold. Records that differ in what is written of them are read differently.
-/

namespace LogRelay

theorem Level.name_injective {a b : Level} (h : a.name = b.name) : a = b := by
  cases a <;> cases b <;> first | rfl | exact absurd h (by decide)

namespace Record

theorem topicTree_injective {topic topic' : Option Topic} (h : topicTree topic = topicTree topic') :
    topic.map Topic.name = topic'.map Topic.name := by
  match topic, topic', h with
  | none, none, _ => rfl
  | some t, some t', h => exact congrArg some (Json.Tree.text.inj h)

/-- The keys under which a line tells of its record. -/
def jsonKeys : List String := ["level", "topic", "file", "line", "func", "message"]

/-- The object of a record determines all that it tells of it. -/
theorem eq_of_tree {r r' : Record} {now now' : String}
    (h : ∀ key ∈ jsonKeys, (r.tree now).value? key = (r'.tree now').value? key) :
    r.level = r'.level ∧ r.topic.map Topic.name = r'.topic.map Topic.name ∧ r.file = r'.file ∧ r.line = r'.line ∧
      r.func = r'.func ∧ r.message = r'.message := by
  have hlevel : some (Json.Tree.text r.level.name) = some (.text r'.level.name) := h "level" (by decide)
  have htopic : some (topicTree r.topic) = some (topicTree r'.topic) := h "topic" (by decide)
  have hfile : some (Json.Tree.text r.file) = some (.text r'.file) := h "file" (by decide)
  have hline : some (Json.Tree.number r.line.toNat 0) = some (.number r'.line.toNat 0) := h "line" (by decide)
  have hfunc : some (Json.Tree.text r.func) = some (.text r'.func) := h "func" (by decide)
  have hmessage : some (Json.Tree.text r.message) = some (.text r'.message) := h "message" (by decide)
  refine ⟨Level.name_injective ?_, topicTree_injective (Option.some.inj htopic), ?_, UInt32.toNat_inj.1 ?_, ?_, ?_⟩
  · exact Json.Tree.text.inj (Option.some.inj hlevel)
  · exact Json.Tree.text.inj (Option.some.inj hfile)
  · exact Int.ofNat.inj (Json.Tree.number.inj (Option.some.inj hline)).1
  · exact Json.Tree.text.inj (Option.some.inj hfunc)
  · exact Json.Tree.text.inj (Option.some.inj hmessage)

end Record

namespace Session

variable {s : Session}

/-- The lines that a file sink in JSON format writes of records, without their newlines. -/
def jsonLines (bound : Level) (log : List (String × Record)) : List Bytes :=
  (log.filter fun e => e.2.isEnabled bound).map fun e => e.2.jsonBytes e.1

theorem flatMap_fileLines (bound : Level) (log : List (String × Record)) :
    (fileLines bound .json log).flatMap Utf8.ofText = (jsonLines bound log).flatMap (· ++ [10]) := by
  have hb (r : Record) (now : String) : Utf8.ofText (LineFormat.json.line r now) = r.jsonBytes now ++ [10] :=
    r.ofText_jsonLine now
  exact flatMap_fileLines_of_bodies hb bound log

theorem newline_not_mem_jsonLines {bound : Level} {log : List (String × Record)} :
    ∀ line ∈ jsonLines bound log, 10 ∉ line := by
  intro line hm
  obtain ⟨e, -, rfl⟩ := List.mem_map.1 hm
  exact e.2.newline_not_mem_jsonBytes e.1

theorem decode?_jsonLines (bound : Level) (log : List (String × Record)) :
    List.Forall₂ (fun e line => Json.decode? line = some (e.2.tree e.1)) (log.filter fun e => e.2.isEnabled bound)
      (jsonLines bound log) := by
  rw [jsonLines, List.forall₂_map_right_iff, List.forall₂_same]
  exact fun e _ => e.2.decode?_jsonBytes e.1

/-- A log of any records, logged to a file that is empty or ends in a newline, leaves the old lines there and adds one
line for each record that is enabled, in their order; each is read as the object of its record. Lines that agree under
all keys but that of the time are of records that agree. -/
theorem json_log_reads_back {name : String} {bound : Level} {node : NodeId} {old : Bytes}
    (hs : s.sinks.lookup name = some (.file bound .json node)) (ho : s.files.content? node = some old)
    (hold : old = [] ∨ old.getLast? = some 10) (log : List (String × Record)) :
    (∃ new lines, (s.run (log.map fun e => (e.1, .hand name e.2))).1.files.content? node = some new ∧
      new.splitOn 10 = (old.splitOn 10).dropLast ++ lines ++ [[]] ∧
      List.Forall₂ (fun e line => Json.decode? line = some (e.2.tree e.1)) (log.filter fun e => e.2.isEnabled bound)
        lines) ∧
      ∀ (r r' : Record) (now now' : String),
        (∀ key ∈ Record.jsonKeys, (Json.decode? (Utf8.ofText (LineFormat.json.line r now))).bind (·.value? key) =
          (Json.decode? (Utf8.ofText (LineFormat.json.line r' now'))).bind (·.value? key)) →
        r.level = r'.level ∧ r.topic.map Topic.name = r'.topic.map Topic.name ∧ r.file = r'.file ∧ r.line = r'.line ∧
          r.func = r'.func ∧ r.message = r'.message := by
  refine ⟨?_, fun r r' now now' h => ?_⟩
  · refine ⟨old ++ (jsonLines bound log).flatMap (· ++ [10]), jsonLines bound log, ?_, ?_, decode?_jsonLines bound log⟩
    · rw [run_hand log hs, ho, flatMap_fileLines, Option.map_some]
    · exact splitOn_append_lines hold newline_not_mem_jsonLines
  · have ht : ∀ key ∈ Record.jsonKeys, (r.tree now).value? key = (r'.tree now').value? key := by
      intro key hk
      have hv := h key hk
      rwa [Record.decode?_jsonLine, Record.decode?_jsonLine, Option.bind_some, Option.bind_some] at hv
    exact Record.eq_of_tree ht

/-- A record with a newline, a quote, a backslash and a NUL in its texts, one that the bound keeps out, and one that the
level of its topic lets in. -/
theorem json_log_reads_back_onFile :
    let s := onFile .json
    let log : List (String × Record) :=
      [("t0", ⟨.info, none, "a\"\\", 1, "f\n", "x\x00\ty"⟩), ("t1", ⟨.trace, none, "b", 2, "g", "hidden"⟩),
       ("t2", ⟨.trace, some (.withLevel "net" .trace), "c", 4294967295, "h", "é"⟩)]
    s.sinks.lookup "file" = some (.file .info .json 16) ∧ s.files.content? 16 = some (Format.ascii "old\n") ∧
      (Format.ascii "old\n").getLast? = some 10 ∧
      ∃ new lines, (s.run (log.map fun e => (e.1, .hand "file" e.2))).1.files.content? 16 = some new ∧
        new.splitOn 10 = ((Format.ascii "old\n").splitOn 10).dropLast ++ lines ++ [[]] ∧
        List.Forall₂ (fun e line => Json.decode? line = some (e.2.tree e.1)) (log.filter fun e => e.2.isEnabled .info)
          lines := by
  intro s log
  have hs : s.sinks.lookup "file" = some (.file .info .json 16) := lookup_onFile .json
  have ho : s.files.content? 16 = some (Format.ascii "old\n") := content?_onFile .json
  have hold : (Format.ascii "old\n").getLast? = some 10 := by decide
  exact ⟨hs, ho, hold, (json_log_reads_back hs ho (.inr hold) log).1⟩

end Session
end LogRelay
