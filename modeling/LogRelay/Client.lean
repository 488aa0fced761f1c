import LogRelay.Interface

/-!
# Clients

A client logs finished text through a handle, its own or a host's. The text goes out as the one argument of the format
`%s`, so that nothing in it is interpreted, and every text ends at its first NUL. `log` and `logt` pass on every message;
the macros that programs write (`GuardedCall`) first ask the client for the level.
-/

namespace LogRelay

structure Client where
  handle : Handle
  methods : Methods
  deriving DecidableEq

/-- Why a handle is refused. -/
inductive Refusal where
  | noHandle
  | noMethods
  | tooOld (version : UInt32)
  deriving DecidableEq

/-- The part of a text before its first NUL. -/
def untilNulChar (s : String) : String := String.ofList (s.toList.takeWhile (· ≠ '\x00'))

/-- A text as it is passed on, up to its first NUL; were that refused, it would be empty. -/
def TextPointer.ofText (s : String) : TextPointer := (ofBytes? (Utf8.ofText (untilNulChar s))).getD (some [])

/-- A line number as it is passed on, the largest signed number for all beyond. -/
def lineArgument (line : UInt32) : Int32 := Int32.ofNat (min line.toNat (Nat.pow 2 31 - 1))

def Topic.raw (t : Topic) : RawTopic :=
  ⟨currentVersion, .ofText t.name, t.level.word, if t.custom then 1 else 0⟩

/-- Where in a program a message is logged. -/
structure Place where
  file : String
  line : UInt32
  func : String
  deriving DecidableEq

def Record.place (r : Record) : Place := ⟨r.file, r.line, r.func⟩

/-- What a macro is given besides the message: a level, a level and a topic, or, where the macro is that of a severity,
nothing or a topic. -/
inductive Guard where
  | level (level : Level)
  | topic (level : Level) (topic : Topic)
  | severity (severity : Severity) (topic : Option Topic)
  deriving DecidableEq

/-- A use of a macro: it logs the message if the client says that the level is enabled. -/
structure GuardedCall where
  guard : Guard
  place : Place
  message : String
  deriving DecidableEq

namespace Client

/-- A client of an interface of this program. -/
def ofOwn (h : Handle) : Client := ⟨h, .own⟩

/-- A client of a handle from elsewhere. -/
def connect (h : Option Handle) : Except Refusal Client :=
  match h with
  | none => .error .noHandle
  | some h =>
    match h.methods with
    | none => .error .noMethods
    | some m => if m.version < Methods.requiredVersion then .error (.tooOld m.version) else .ok ⟨h, m⟩

/-- The level that the handle asks to keep to. -/
def level (c : Client) : Level := .ofWord c.handle.level

/-- Whether a call is worth making. -/
def levelEnabled (c : Client) (level : Level) (topic : Option Topic) : Bool :=
  level.passes (Topic.bound topic c.level)

/-- The address of the text that is passed on. The format does not show it. -/
def textAddress : UInt64 := 0x1000

def call (r : Record) : Call where
  level := r.level.word
  topic := r.topic.map Topic.raw
  file := .ofText r.file
  line := lineArgument r.line
  func := .ofText r.func
  format := some (Format.ascii "%s")
  args := [.ofPointer textAddress (.ofText r.message)]

/-- Calls a slot of the table, with the receiver of the handle. -/
def pass (c : Client) (slot : Slot) (r : Record) : Option Delivery := do
  let slot ← c.methods.slot? slot
  slot.deliver c.handle.receiver (call r)

/-- Passes a message on, whatever its level. -/
def log (c : Client) (level : Level) (p : Place) (message : String) : Option Delivery :=
  c.pass .log ⟨level, none, p.file, p.line, p.func, message⟩

/-- Passes a message on that has a topic. -/
def logt (c : Client) (level : Level) (topic : Topic) (p : Place) (message : String) : Option Delivery :=
  c.pass .logt ⟨level, some topic, p.file, p.line, p.func, message⟩

/-- Passes a record on, whatever its level. -/
def send (c : Client) (r : Record) : Option Delivery :=
  match r.topic with
  | none => c.log r.level r.place r.message
  | some topic => c.logt r.level topic r.place r.message

/-! ## Macros -/

def logEnabled (c : Client) (level : Level) (p : Place) (message : String) : Option Delivery :=
  if c.levelEnabled level none then c.log level p message else none

def logtEnabled (c : Client) (level : Level) (topic : Topic) (p : Place) (message : String) : Option Delivery :=
  if c.levelEnabled level (some topic) then c.logt level topic p message else none

/-- What a use of a macro comes to. -/
def expand (c : Client) (g : GuardedCall) : Option Delivery :=
  match g.guard with
  | .level level => c.logEnabled level g.place g.message
  | .topic level topic => c.logtEnabled level topic g.place g.message
  | .severity severity none => c.logEnabled severity.level g.place g.message
  | .severity severity (some topic) => c.logtEnabled severity.level topic g.place g.message

end Client
end LogRelay
