import LogRelay.Config
import LogRelay.Json
import LogRelay.Record
import LogRelay.Text.Padded

/-!
# Lines of a log file

A record becomes one line of text or one JSON object, with the time it was written at the front or among the fields.
-/

namespace LogRelay

namespace Record

/-- What is said, with the function that says it. -/
def statement (r : Record) : String := r.func ++ "(): " ++ r.message

/-- `[time][LEVEL] target: file:line func(): message`, the level on the right of five columns. -/
def textLine (r : Record) (now : String) : String :=
  "[" ++ now ++ "][" ++ Text.rightAligned 5 r.level.name ++ "] " ++ r.target ++ ": " ++ r.file ++ ":" ++
    toString r.line.toNat ++ " " ++ r.statement ++ "\n"

/-- The fields of the JSON form, in the order of their names. -/
def jsonFields (r : Record) (now : String) : List (String × Json.Value) :=
  [("file", .text r.file), ("func", .text r.func), ("level", .text r.level.name), ("line", .number r.line.toNat),
   ("message", .text r.message), ("time", .text now),
   ("topic", match r.topic with
     | some t => .text t.name
     | none => .null)]

def jsonLine (r : Record) (now : String) : String := String.ofList (Json.objectChars (r.jsonFields now) ++ ['\n'])

end Record

def LineFormat.line (f : LineFormat) (r : Record) (now : String) : String :=
  match f with
  | text => r.textLine now
  | json => r.jsonLine now

end LogRelay
