import LogRelay.Proofs.Json.Written
import LogRelay.Proofs.Utf8.Encoded
import LogRelay.Sink

/-!
# What is read of a record

A file sink writes a line of a record, and a facade sink makes an event of it. `LineFormat.Shows` says what such a line is,
and `FacadeEvent.Tells` what the event tells, without a look at how they are made: a line of text by its layout, a line of
JSON by what a reader of JSON makes of it. Both give the level by its name (`Level.Named`).
-/

namespace LogRelay

/-- The name under which a level is known outside. -/
inductive Level.Named : Level → String → Prop
  | off : Named .off "NONE"
  | error : Named .error "ERROR"
  | warn : Named .warn "WARN"
  | info : Named .info "INFO"
  | debug : Named .debug "DEBUG"
  | trace : Named .trace "TRACE"

theorem Level.named_name (l : Level) : l.Named l.name := by cases l <;> constructor

theorem Level.Named.eq_name {l : Level} {name : String} (h : l.Named name) : name = l.name := by cases h <;> rfl

/-! ## Lines of text -/

/-- `[time][LEVEL] target: file:line text`, the level on the right of five columns. -/
def textLayout (time level target file : String) (line : Nat) (text : String) : String :=
  "[" ++ time ++ "][" ++ (String.ofList (List.replicate (5 - level.length) ' ') ++ level) ++ "] " ++ target ++ ": " ++
    file ++ ":" ++ toString line ++ " " ++ text ++ "\n"

theorem Text.rightAligned_eq (width : Nat) (s : String) :
    rightAligned width s = String.ofList (List.replicate (width - s.length) ' ') ++ s := by
  rw [← String.toList_inj, rightAligned, Padding.apply]
  simp [Padding.place, String.length_toList]

theorem Record.target_eq (r : Record) : r.target = (r.topic.map Topic.name).getD "spa" := by
  unfold target
  cases r.topic <;> rfl

theorem Record.textLine_eq (r : Record) (now : String) :
    r.textLine now =
      textLayout now r.level.name ((r.topic.map Topic.name).getD "spa") r.file r.line.toNat r.statement := by
  unfold textLine textLayout
  rw [Text.rightAligned_eq, target_eq]

/-! ## Lines of JSON -/

namespace Json

theorem lex_nil : lex [] = some [] := by rw [lex]

theorem lex_newline : lex ['\n'] = some [] := by
  rw [lex, show isBlank '\n' = true from rfl, if_pos rfl, lex_nil]

/-- What a line of bytes is read as. -/
def decode? (line : Bytes) : Option Tree := (Utf8.decode? line).bind fun s => parse s.toList

def Tree.value? (t : Tree) (key : String) : Option Tree :=
  match t with
  | .object members => members.lookup key
  | _ => none

theorem decode?_encode (cs : List Char) : decode? (Utf8.encode cs) = parse cs := by
  have h := Utf8.decode?_ofText (String.ofList cs)
  rw [Utf8.ofText, String.toList_ofList] at h
  rw [decode?, h, Option.bind_some, String.toList_ofList]

end Json

namespace Record

/-- The value that stands for a topic: its name. -/
def topicTree (topic : Option Topic) : Json.Tree :=
  match topic with
  | some t => .text t.name
  | none => .null

/-- The object that stands for a record logged at a time. -/
def tree (r : Record) (now : String) : Json.Tree :=
  .object
    [("file", .text r.file), ("func", .text r.func), ("level", .text r.level.name), ("line", .number r.line.toNat 0),
     ("message", .text r.message), ("time", .text now), ("topic", topicTree r.topic)]

/-- The JSON line of a record, without its newline. -/
def jsonBytes (r : Record) (now : String) : Bytes := Utf8.encode (Json.objectChars (r.jsonFields now))

theorem ofText_jsonLine (r : Record) (now : String) : Utf8.ofText (r.jsonLine now) = r.jsonBytes now ++ [10] := by
  rw [jsonLine, Utf8.ofText, String.toList_ofList, Utf8.encode_append]
  rfl

theorem newline_not_mem_jsonBytes (r : Record) (now : String) : 10 ∉ r.jsonBytes now := by
  intro h
  exact Json.newline_not_mem_objectChars _ ((Utf8.mem_encode (by decide)).1 h)

theorem map_member_jsonFields (r : Record) (now : String) : .object ((r.jsonFields now).map Json.member) = r.tree now := by
  unfold jsonFields tree topicTree
  cases r.topic <;> rfl

/-- A line is read as the object of its record, with its newline or without. -/
theorem decode?_written (r : Record) (now : String) {rest : List Char} (hr : Json.lex rest = some []) :
    Json.decode? (Utf8.encode (Json.objectChars (r.jsonFields now) ++ rest)) = some (r.tree now) := by
  rw [Json.decode?_encode, Json.parse_object _ hr, map_member_jsonFields]

theorem decode?_jsonBytes (r : Record) (now : String) : Json.decode? (r.jsonBytes now) = some (r.tree now) := by
  have h := r.decode?_written now Json.lex_nil
  rwa [List.append_nil] at h

theorem decode?_jsonLine (r : Record) (now : String) :
    Json.decode? (Utf8.ofText (LineFormat.json.line r now)) = some (r.tree now) := by
  show Json.decode? (Utf8.ofText (String.ofList (Json.objectChars (r.jsonFields now) ++ ['\n']))) = _
  rw [Utf8.ofText, String.toList_ofList, r.decode?_written now Json.lex_newline]

end Record

/-! ## Lines and events of a record -/

/-- A line that shows the record `r`, logged at the time `now`. -/
inductive LineFormat.Shows : LineFormat → Record → String → Bytes → Prop
  | text {r : Record} {now level : String} (h : r.level.Named level) :
      Shows .text r now (Utf8.ofText (textLayout now level ((r.topic.map Topic.name).getD "spa") r.file r.line.toNat
        (r.func ++ "(): " ++ r.message)))
  | json {r : Record} {now level : String} {object : Bytes} (h : r.level.Named level) (hn : 10 ∉ object)
      (hr : Json.decode? object = some (.object
        [("file", .text r.file), ("func", .text r.func), ("level", .text level), ("line", .number r.line.toNat 0),
         ("message", .text r.message), ("time", .text now),
         ("topic", match r.topic with
           | some t => .text t.name
           | none => .null)])) :
      Shows .json r now (object ++ [10])

theorem LineFormat.shows_line (format : LineFormat) (r : Record) (now : String) :
    format.Shows r now (Utf8.ofText (format.line r now)) := by
  cases format with
  | text =>
    rw [line, r.textLine_eq]
    exact .text r.level.named_name
  | json =>
    rw [line, r.ofText_jsonLine]
    exact .json r.level.named_name (r.newline_not_mem_jsonBytes now) (r.decode?_jsonBytes now)

/-- There is one line of text for a record and a time. -/
theorem LineFormat.Shows.eq_line {r : Record} {now : String} {line : Bytes} (h : LineFormat.text.Shows r now line) :
    line = Utf8.ofText (LineFormat.text.line r now) := by
  cases h with
  | text h =>
    rw [h.eq_name, LineFormat.line, r.textLine_eq, Record.statement]

/-- The event `e` tells of the record `r`. -/
structure FacadeEvent.Tells (e : FacadeEvent) (r : Record) : Prop where
  severity : e.severity.level = r.level
  named : r.level.Named e.severity.name
  target : e.target = (r.topic.map Topic.name).getD "spa"
  text : e.text = r.func ++ "(): " ++ r.message
  file : e.file = r.file
  line : e.line = r.line

theorem Severity.level_of_ofLevel? {l : Level} {severity : Severity} (h : ofLevel? l = some severity) :
    severity.level = l := by
  cases l <;> cases h <;> rfl

theorem Record.tells_facadeEvent {r : Record} {e : FacadeEvent} (h : r.facadeEvent? = some e) : e.Tells r := by
  obtain ⟨severity, hs, rfl⟩ := Option.map_eq_some_iff.1 h
  have hl := Severity.level_of_ofLevel? hs
  exact ⟨hl, hl ▸ severity.level.named_name, r.target_eq, rfl, rfl, rfl⟩

end LogRelay
