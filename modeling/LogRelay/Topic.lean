import LogRelay.Level
import LogRelay.Text.Terminated

/-!
# Topics

A topic names the part of a program that logs. It may have a level of its own, which then counts in place of the
level in force. `RawTopic` is the descriptor that a caller hands over by address.
-/

namespace LogRelay

@[ext]
structure Topic where
  version : UInt32
  name : String
  level : Level
  /-- Whether the level is the topic's own. -/
  custom : Bool
  deriving DecidableEq

namespace Topic

def currentVersion : UInt32 := 0

def named (name : String) : Topic := ⟨currentVersion, name, .standard, false⟩

def withLevel (name : String) (level : Level) : Topic := ⟨currentVersion, name, level, true⟩

/-- The level that counts for the topic where `inherited` is in force. -/
def effectiveLevel (t : Topic) (inherited : Level) : Level := if t.custom then t.level else inherited

end Topic

/-- The level that counts for a record on an optional topic where `bound` is in force. -/
def Topic.bound (topic : Option Topic) (bound : Level) : Level :=
  match topic with
  | some t => t.effectiveLevel bound
  | none => bound

/-- A topic descriptor in memory. -/
structure RawTopic where
  version : UInt32
  name : TextPointer
  level : UInt32
  /-- The byte that says whether the level is the topic's own: any but zero does. -/
  custom : UInt8
  deriving DecidableEq

def RawTopic.topic (t : RawTopic) : Topic := ⟨t.version, t.name.text, .ofWord t.level, t.custom ≠ 0⟩

end LogRelay
