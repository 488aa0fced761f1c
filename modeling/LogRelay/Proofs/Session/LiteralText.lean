import LogRelay.Proofs.Format.Escaped
import LogRelay.Proofs.Session.Calls
import LogRelay.Proofs.Session.Clients

/-!
# Literal text

There are three ways to log a text as it is: to pass it on through a client, to make it the argument of the format `%s`,
and to escape it into a format of its own. The record that arrives is the same for all three and on every route that
takes the record's topic: the format may be twice as long as the text, but the buffer bounds only what is rendered.
-/

namespace LogRelay

/-- A text ends at its first NUL, whether as characters or as bytes. -/
theorem Utf8.untilNul_ofText (s : String) : Bytes.untilNul (ofText s) = ofText (untilNulChar s) := by
  have hrest : Bytes.untilNul (encode (s.toList.dropWhile (· ≠ '\x00'))) = [] := by
    cases hd : s.toList.dropWhile (· ≠ '\x00') with
    | nil => rfl
    | cons c cs =>
      obtain rfl : c = '\x00' := by
        have hc := List.head?_dropWhile_not (· ≠ '\x00') s.toList
        rw [hd] at hc
        simpa using hc
      rfl
  have hfront := zero_not_mem_ofText_untilNulChar s
  rw [ofText, untilNulChar, String.toList_ofList] at hfront
  rw [ofText, ofText, untilNulChar, String.toList_ofList]
  conv_lhs => rw [← List.takeWhile_append_dropWhile (p := (· ≠ '\x00')) (l := s.toList), encode_append]
  rw [Bytes.untilNul, List.takeWhile_append_of_pos, ← Bytes.untilNul, hrest, List.append_nil]
  intro b hb
  simpa using fun h0 : b = 0 => hfront (h0 ▸ hb)

theorem TextPointer.bytes_some_ofText (s : String) : bytes (some (Utf8.ofText s)) = (ofText s).bytes := by
  rw [bytes_ofText, ← Utf8.untilNul_ofText]
  rfl

/-- The record of a call depends on what its pointers show, not on where the texts behind them end. -/
theorem Call.record_congr {c c' : Call} (level : c.level = c'.level)
    (topic : c.topic.map RawTopic.topic = c'.topic.map RawTopic.topic) (file : c.file.bytes = c'.file.bytes)
    (line : c.line = c'.line) (func : c.func.bytes = c'.func.bytes)
    (message : Format.render c.format.bytes c.args = Format.render c'.format.bytes c'.args) : c.record = c'.record := by
  have fields (c : Call) : c.record = ⟨.ofWord c.level, c.topic.map RawTopic.topic, Utf8.decode c.file.bytes,
      UInt32.ofNat c.line.toInt.toNat, Utf8.decode c.func.bytes, c.record.message⟩ := rfl
  rw [fields c, fields c', message_record, message_record, level, topic, file, line, func, message]

/-- A record as a call with the given format and arguments: its texts in memory as they are, and as much of its line
number as fits. -/
def Record.inMemory (r : Record) (format : Bytes) (args : List Format.Argument) : Call where
  level := r.level.word
  topic := r.topic.map fun t =>
    ⟨Topic.currentVersion, some (Utf8.ofText t.name), t.level.word, if t.custom then 1 else 0⟩
  file := some (Utf8.ofText r.file)
  line := lineArgument r.line
  func := some (Utf8.ofText r.func)
  format := some format
  args := args

/-- The call that makes a text the argument of `%s`, at whatever address. -/
def Record.asArgument (r : Record) (address : UInt64) : Call :=
  r.inMemory (Format.ascii "%s") [.text address (Utf8.ofText r.message)]

/-- The call that escapes a text into its format. -/
def Record.asFormat (r : Record) : Call := r.inMemory (Format.escaped (Utf8.ofText r.message)) []

namespace Record

theorem record_inMemory {r : Record} {format : Bytes} {args : List Format.Argument}
    (h : Format.render (Bytes.untilNul format) args = Utf8.ofText (untilNulChar r.message)) :
    (r.inMemory format args).record = (Client.call r).record := by
  have hfile := TextPointer.bytes_some_ofText r.file
  have hfunc := TextPointer.bytes_some_ofText r.func
  rw [← Client.file_call] at hfile
  rw [← Client.func_call] at hfunc
  refine Call.record_congr rfl ?_ hfile rfl hfunc ?_
  · rw [Client.topic_call, inMemory, Option.map_map, Option.map_map]
    refine Option.map_congr fun t _ => ?_
    rw [Function.comp_apply, Function.comp_apply, Topic.raw, RawTopic.topic, RawTopic.topic, TextPointer.text,
      TextPointer.bytes_some_ofText, ← TextPointer.text]
  · rw [Client.render_call]
    exact h

theorem record_asArgument (r : Record) (address : UInt64) :
    (r.asArgument address).record = (Client.call r).record := by
  refine record_inMemory ?_
  rw [show Bytes.untilNul (Format.ascii "%s") = Format.ascii "%s" by decide, Format.render_plainText,
    Utf8.untilNul_ofText]

theorem record_asFormat (r : Record) : r.asFormat.record = (Client.call r).record := by
  refine record_inMemory ?_
  rw [Format.untilNul_escaped, Format.render_escaped, Utf8.untilNul_ofText]

end Record

/-- A method that takes the topic of a call, if there is one, takes up the whole call. -/
theorem Slot.taken_eq_self {slot : Slot} {c : Call} (h : c.topic.isSome → slot.takesTopic) : slot.taken c = c := by
  unfold taken
  split
  · rfl
  · next hs =>
    refine Call.withoutTopic_eq (Option.not_isSome_iff_eq_none.1 fun ht => hs (h ht))

namespace Session

variable {s : Session}

/-- A record that a client passes on reaches the sink as the same record as its text by way of `%s` and as its escaped
text: the one with the texts up to their first NUL, and of the message what fits. -/
theorem literal_text_on_every_way (h : Reached s) {name client : String} {i : Interface}
    (hi : s.interfaces.lookup name = some i) {cl : Derived Client} (hc : s.clients.lookup client = some cl)
    (ho : cl.value.handle = i.handle) (r : Record) :
    ∃ r', r.PassedAs r' ∧ ∀ now, HandsOver s now (.send client r) i.sink r' ∧
      ∀ route : Route, (r.topic.isSome → route.slot.takesTopic) →
        (∀ address, HandsOver s now (.call (some name) route (r.asArgument address)) i.sink r') ∧
        HandsOver s now (.call (some name) route r.asFormat) i.sink r' := by
  refine ⟨(Client.call r).record, Client.passedAs_record r, fun now =>
    ⟨h.wired.step_send (mem_of_lookup hi) hc ho now r, fun route ht => ?_⟩⟩
  have taken (format : Bytes) (args : List Format.Argument) :
      route.slot.taken (r.inMemory format args) = r.inMemory format args :=
    Slot.taken_eq_self (by rw [Record.inMemory, Option.isSome_map]; exact ht)
  refine ⟨fun address => ?_, ?_⟩
  · have hargument := h.wired.step_call hi now route (r.asArgument address)
    rwa [Record.asArgument, taken, ← Record.asArgument, Record.record_asArgument] at hargument
  · have hformat := h.wired.step_call hi now route r.asFormat
    rwa [Record.asFormat, taken, ← Record.asFormat, Record.record_asFormat] at hformat

/-- A text of percent signs that fits the buffer only as long as they are not doubled, on a topic. -/
theorem literal_text_on_every_way_percents :
    let s := (single.step "" (.ownClient "client" "main")).1
    let i : Interface := ⟨.own 1 .info, 1, "sink"⟩
    let cl : Derived Client := ⟨some "main", .ofOwn (.own 1 .info)⟩
    let r : Record := ⟨.info, some (.named "net"), "%n.c", 7, "f%", String.ofList (List.replicate 16383 '%')⟩
    Reached s ∧ s.interfaces.lookup "main" = some i ∧ s.clients.lookup "client" = some cl ∧
      cl.value.handle = i.handle ∧
      ∃ r', r.PassedAs r' ∧ ∀ now, HandsOver s now (.send "client" r) i.sink r' ∧
        ∀ route : Route, (r.topic.isSome → route.slot.takesTopic) →
          (∀ address, HandsOver s now (.call (some "main") route (r.asArgument address)) i.sink r') ∧
          HandsOver s now (.call (some "main") route r.asFormat) i.sink r' := by
  intro s i cl r
  have h : Reached s := reached_single.step "" (.ownClient "client" "main")
  have hi : s.interfaces.lookup "main" = some i := lookup_single
  have hc : s.clients.lookup "client" = some cl := rfl
  exact ⟨h, hi, hc, rfl, literal_text_on_every_way h hi hc rfl r⟩

end Session
end LogRelay
