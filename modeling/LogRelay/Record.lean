import LogRelay.Format.Render
import LogRelay.Topic

/-!
# Log records

A `Record` is what a sink gets. It is made of the raw fields of a call (`RawRecord`), whose message has been rendered
into a buffer of bounded size. A message cut off inside a character loses what is left of that character.
-/

namespace LogRelay

@[ext]
structure Record where
  level : Level
  topic : Option Topic
  file : String
  line : UInt32
  func : String
  message : String
  deriving DecidableEq

namespace Record

/-- Whether a sink with the bound `max` shows the record: its level is not `off` and not above the topic's own level,
or above `max` where the topic has none. -/
def isEnabled (r : Record) (max : Level) : Bool := r.level.passes (Topic.bound r.topic max)

/-- The topic's name, `spa` where there is no topic. -/
def target (r : Record) : String :=
  match r.topic with
  | some t => t.name
  | none => "spa"

end Record

/-- The fields of a rendered call. -/
structure RawRecord where
  level : UInt32
  topic : Option RawTopic
  file : TextPointer
  line : Int32
  func : TextPointer
  message : TextPointer
  deriving DecidableEq

/-- The record that raw fields stand for. A negative line counts as zero. -/
def RawRecord.record (r : RawRecord) : Record where
  level := .ofWord r.level
  topic := r.topic.map RawTopic.topic
  file := r.file.text
  line := UInt32.ofNat r.line.toInt.toNat
  func := r.func.text
  message := r.message.cutText

/-- A call: the fields as the caller gives them, the message as a format and its arguments. -/
structure Call where
  level : UInt32
  topic : Option RawTopic
  file : TextPointer
  line : Int32
  func : TextPointer
  format : TextPointer
  args : List Format.Argument
  deriving DecidableEq

namespace Call

/-- The call with its message rendered. -/
def raw (c : Call) : RawRecord := ⟨c.level, c.topic, c.file, c.line, c.func, some (Format.buffered c.format c.args)⟩

def withoutTopic (c : Call) : Call := { c with topic := none }

def record (c : Call) : Record := c.raw.record

end Call
end LogRelay
