import LogRelay.Record

/-!
# Logging interfaces

A program that logs holds a `Handle`: a table of methods, the receiver that their calls go to, and the level that it
should keep to. The four methods render the message and make the same `Delivery` of it. A call may go through a slot of
the table, straight to a method, or through the helpers of a host, which check the handle first.
-/

namespace LogRelay

/-- The methods of a table. Those with a `v` take their arguments as a list. -/
inductive Slot where
  | log | logv | logt | logtv
  deriving DecidableEq

/-- Whether the method takes a topic. -/
def Slot.takesTopic : Slot → Bool
  | log => false
  | logv => false
  | logt => true
  | logtv => true

/-- A table of methods. -/
structure Methods where
  version : UInt32
  slots : List Slot
  /-- Whether the deprecated slot for setting topics up is filled. -/
  topicInit : Bool
  deriving DecidableEq

namespace Methods

/-- The version of the table that clients rely on. -/
def requiredVersion : UInt32 := 1

/-- The table of every interface made here. -/
def own : Methods := ⟨requiredVersion, [.log, .logv, .logt, .logtv], false⟩

def slot? (m : Methods) (s : Slot) : Option Slot := if m.slots.contains s then some s else none

end Methods

/-- Receivers are told apart by number. -/
abbrev ReceiverId := Nat

/-- A handle on an interface. -/
structure Handle where
  typeName : String
  version : UInt32
  methods : Option Methods
  receiver : Option ReceiverId
  /-- The word of the level to keep to. -/
  level : UInt32
  deriving DecidableEq

namespace Handle

def logType : String := "Spa:Pointer:Interface:Log"

def currentVersion : UInt32 := 1

/-- A handle on the interface of a receiver. -/
def own (receiver : ReceiverId) (level : Level) : Handle :=
  ⟨logType, currentVersion, some .own, some receiver, level.word⟩

end Handle

/-- A record on its way to a receiver. -/
structure Delivery where
  receiver : ReceiverId
  record : Record
  deriving DecidableEq

/-- Hands a rendered call over. Without a receiver it is dropped. -/
def RawRecord.deliver (r : RawRecord) (receiver : Option ReceiverId) : Option Delivery :=
  receiver.map fun id => ⟨id, r.record⟩

/-- What a method does: it renders the message and hands the call over, with its topic if it takes one. -/
def Slot.deliver (s : Slot) (receiver : Option ReceiverId) (c : Call) : Option Delivery :=
  (if s.takesTopic then c else c.withoutTopic).raw.deliver receiver

/-- The table that the helpers of a host go by: that of a handle which has one, of version 1 or later. -/
def Handle.usableMethods (h : Option Handle) : Option Methods :=
  match h with
  | none => none
  | some h =>
    match h.methods with
    | none => none
    | some m => if m.version < 1 then none else some m

/-- The ways of a call. -/
inductive Route where
  /-- Through a slot of the handle's table, unchecked. -/
  | table (slot : Slot)
  /-- To the method itself, with the handle's receiver. -/
  | direct (slot : Slot)
  /-- Through the helper of a host for the slot. -/
  | helper (slot : Slot)
  deriving DecidableEq

/-- Where a call on a handle ends up. -/
def Route.deliver (route : Route) (h : Option Handle) (c : Call) : Option Delivery :=
  match route with
  | table slot => do
    let h ← h
    let slot ← (← h.methods).slot? slot
    slot.deliver h.receiver c
  | direct slot => do
    let h ← h
    slot.deliver h.receiver c
  | helper slot => do
    let slot ← (← Handle.usableMethods h).slot? slot
    slot.deliver (← h).receiver c

end LogRelay
