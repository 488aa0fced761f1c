import LogRelay.Proofs.Session.FileLog
import LogRelay.Proofs.Utf8.Encoded

/-!
# Lines of a text log

In text format the texts of a record are written as they are. A newline in one of them ends the line, and what follows
it starts another, which may well look like that of a record of its own (`forgedLog`). So a record takes as many lines as
its texts have newlines, and one more.
-/

namespace LogRelay

namespace Record

/-- The text line of a record, without the newline at its end. -/
def textBody (r : Record) (now : String) : String :=
  "[" ++ now ++ "][" ++ Text.rightAligned 5 r.level.name ++ "] " ++ r.target ++ ": " ++ r.file ++ ":" ++
    toString r.line.toNat ++ " " ++ r.statement

def textBytes (r : Record) (now : String) : Bytes := Utf8.ofText (r.textBody now)

/-- How many newlines the texts of a record have. -/
def newlines (r : Record) : Nat := (r.target ++ r.file ++ r.func ++ r.message).toList.count '\n'

theorem ofText_textLine (r : Record) (now : String) : Utf8.ofText (r.textLine now) = r.textBytes now ++ [10] := by
  show Utf8.encode (r.textBody now ++ "\n").toList = _
  rw [String.toList_append, Utf8.encode_append]
  rfl

theorem newline_not_mem_level (l : Level) : '\n' ∉ (Text.rightAligned 5 l.name).toList := by
  cases l <;> decide

theorem newline_not_mem_number (n : Nat) : '\n' ∉ (toString n).toList := by
  rw [Nat.toString_eq_repr, Nat.toList_repr]
  intro h
  have hd := Nat.isDigit_of_mem_toDigits (by decide) (by decide) h
  cases hd

theorem newline_not_mem_marks : ∀ mark ∈ ["[", "][", "] ", ": ", ":", " ", "(): "], '\n' ∉ mark.toList := by decide

theorem count_textBytes (r : Record) {now : String} (hn : '\n' ∉ now.toList) :
    (r.textBytes now).count 10 = r.newlines := by
  have hlevel := List.count_eq_zero.2 (newline_not_mem_level r.level)
  have hline := List.count_eq_zero.2 (newline_not_mem_number r.line.toNat)
  have hmarks : ∀ mark ∈ ["[", "][", "] ", ": ", ":", " ", "(): "], mark.toList.count '\n' = 0 := fun mark hm =>
    List.count_eq_zero.2 (newline_not_mem_marks mark hm)
  have hcount := Utf8.count_encode (b := 10) (by decide) (r.textBody now).toList
  simp only [List.forall_mem_cons] at hmarks
  rw [textBytes, Utf8.ofText, hcount, newlines]
  show (r.textBody now).toList.count '\n' = _
  delta textBody statement
  simp only [String.toList_append, List.count_append, hmarks, hlevel, hline, List.count_eq_zero.2 hn]
  omega

theorem length_splitOn_textBytes (r : Record) {now : String} (hn : '\n' ∉ now.toList) :
    ((r.textBytes now).splitOn 10).length = r.newlines + 1 := by
  rw [length_splitOn, r.count_textBytes hn]

end Record

namespace Session

variable {s : Session}

/-- What a file sink in text format writes of records, without the newline at the end of each. -/
def textBodies (bound : Level) (log : List (String × Record)) : List Bytes :=
  (log.filter fun e => e.2.isEnabled bound).map fun e => e.2.textBytes e.1

theorem run_hand_text {name : String} {bound : Level} {node : NodeId} {old : Bytes}
    (hs : s.sinks.lookup name = some (.file bound .text node)) (ho : s.files.content? node = some old)
    (log : List (String × Record)) :
    (s.run (log.map fun e => (e.1, .hand name e.2))).1.files.content? node =
      some (old ++ (textBodies bound log).flatMap (· ++ [10])) := by
  have hb (r : Record) (now : String) : Utf8.ofText (LineFormat.text.line r now) = r.textBytes now ++ [10] :=
    r.ofText_textLine now
  rw [run_hand log hs, ho, flatMap_fileLines_of_bodies hb, Option.map_some, textBodies]

/-- A log of any records, logged to a file that is empty or ends in a newline, leaves the old lines there and adds the
texts of the records that are enabled, in their order, each split at its newlines. These are as many lines as the texts
have newlines, and one more. There is one line for each record if and only if no record that is enabled has a newline. -/
theorem text_log_splits_at_newlines {name : String} {bound : Level} {node : NodeId} {old : Bytes}
    (hs : s.sinks.lookup name = some (.file bound .text node)) (ho : s.files.content? node = some old)
    (hold : old = [] ∨ old.getLast? = some 10) (log : List (String × Record)) (hnow : ∀ e ∈ log, '\n' ∉ e.1.toList) :
    let enabled := log.filter fun e => e.2.isEnabled bound
    ∃ new, (s.run (log.map fun e => (e.1, .hand name e.2))).1.files.content? node = some new ∧
      new.splitOn 10 =
        (old.splitOn 10).dropLast ++ enabled.flatMap (fun e => (e.2.textBytes e.1).splitOn 10) ++ [[]] ∧
      (∀ e ∈ enabled, ((e.2.textBytes e.1).splitOn 10).length = e.2.newlines + 1) ∧
      (new.splitOn 10 = (old.splitOn 10).dropLast ++ enabled.map (fun e => e.2.textBytes e.1) ++ [[]] ↔
        ∀ e ∈ enabled, e.2.newlines = 0) := by
  intro enabled
  have hmem : ∀ e ∈ enabled, '\n' ∉ e.1.toList := fun e he => hnow e (List.mem_filter.1 he).1
  have hsplit := splitOn_append_texts hold (textBodies bound log)
  refine ⟨_, run_hand_text hs ho log, ?_, fun e he => e.2.length_splitOn_textBytes (hmem e he), ?_⟩
  · rw [hsplit, textBodies, List.flatMap_map]
  · rw [hsplit, List.append_left_inj, List.append_right_inj]
    show (textBodies bound log).flatMap _ = textBodies bound log ↔ _
    rw [flatMap_splitOn_eq_self, textBodies, List.forall_mem_map]
    refine forall₂_congr fun e he => ?_
    rw [← List.count_eq_zero, e.2.count_textBytes (hmem e he)]

/-- A record on one line, one with a newline in its message, and one that the bound keeps out. -/
def brokenLog : List (String × Record) :=
  [("t0", ⟨.info, none, "a.c", 1, "f", "one"⟩), ("t1", ⟨.warn, some (.withLevel "net" .warn), "a.c", 2, "f", "two\nlines"⟩),
    ("t2", ⟨.debug, none, "a.c", 3, "f", "unheard"⟩)]

theorem text_log_splits_at_newlines_broken :
    let s := onFile .text
    let old := Format.ascii "old\n"
    let enabled := brokenLog.filter fun e => e.2.isEnabled .info
    s.sinks.lookup "file" = some (.file .info .text 16) ∧ s.files.content? 16 = some old ∧ old.getLast? = some 10 ∧
      (∀ e ∈ brokenLog, '\n' ∉ e.1.toList) ∧ enabled.map (fun e => e.2.newlines) = [0, 1] ∧
      ∃ new, (s.run (brokenLog.map fun e => (e.1, .hand "file" e.2))).1.files.content? 16 = some new ∧
        new.splitOn 10 =
          (old.splitOn 10).dropLast ++ enabled.flatMap (fun e => (e.2.textBytes e.1).splitOn 10) ++ [[]] := by
  intro s old enabled
  have hs : s.sinks.lookup "file" = some (.file .info .text 16) := lookup_onFile .text
  have ho : s.files.content? 16 = some old := content?_onFile .text
  have hold : old.getLast? = some 10 := by decide
  have hnow : ∀ e ∈ brokenLog, '\n' ∉ e.1.toList := by decide
  obtain ⟨new, hnew, hsplit, -, -⟩ := text_log_splits_at_newlines hs ho (.inr hold) brokenLog hnow
  exact ⟨hs, ho, hold, hnow, by decide, new, hnew, hsplit⟩

/-- A record whose message looks like the end of its line and a whole line of another record. -/
def forged : Record := ⟨.info, none, "a.c", 1, "f", "one\n[t][ INFO] spa: a.c:2 f(): two"⟩

/-- One record leaves what two others would leave, and there is no reading the file as one line. -/
theorem text_log_forged :
    let content (log : List (String × Record)) :=
      ((onFile .text).run (log.map fun e => (e.1, .hand "file" e.2))).1.files.content? 16
    content [("t", forged)] =
        content [("t", ⟨.info, none, "a.c", 1, "f", "one"⟩), ("t", ⟨.info, none, "a.c", 2, "f", "two"⟩)] ∧
      ¬ ∃ new lines, content [("t", forged)] = some new ∧
        new.splitOn 10 = ((Format.ascii "old\n").splitOn 10).dropLast ++ lines ++ [[]] ∧ lines.length = 1 := by
  intro content
  have hcontent (log : List (String × Record)) := run_hand_text (lookup_onFile .text) (content?_onFile .text) log
  refine ⟨?_, ?_⟩
  · show (Session.run _ _).1.files.content? 16 = (Session.run _ _).1.files.content? 16
    rw [hcontent, hcontent]
    decide
  · rintro ⟨new, lines, hnew, hsplit, hlength⟩
    have hcontent : content [("t", forged)] = _ := hcontent [("t", forged)]
    obtain rfl := Option.some.inj (hcontent.symm.trans hnew)
    rw [splitOn_append_texts (.inr (by decide))] at hsplit
    have hlines := List.append_cancel_left (List.append_cancel_right hsplit)
    have hcount : ((textBodies .info [("t", forged)]).flatMap (·.splitOn 10)).length = 2 := by decide
    rw [hlines, hlength] at hcount
    cases hcount

end Session
end LogRelay
