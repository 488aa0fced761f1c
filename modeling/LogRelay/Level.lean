/-!
# Log levels

Six levels, ordered by how much they let through: `off` lets nothing through and `trace` everything. A level
travels between programs as its ordinal in a 32-bit word, where a word above the last ordinal reads as `trace`.
-/

namespace LogRelay

inductive Level where
  | off | error | warn | info | debug | trace
  deriving DecidableEq

namespace Level

/-- All levels, the quietest first. -/
def all : List Level := [off, error, warn, info, debug, trace]

def ordinal : Level → Nat
  | off => 0
  | error => 1
  | warn => 2
  | info => 3
  | debug => 4
  | trace => 5

def ofOrdinal? (n : Nat) : Option Level := all[n]?

def word (l : Level) : UInt32 := UInt32.ofNat l.ordinal

/-- The level that a word stands for, `trace` beyond the last. -/
def ofWord (w : UInt32) : Level := (ofOrdinal? w.toNat).getD trace

instance : LE Level := ⟨fun a b => a.ordinal ≤ b.ordinal⟩

instance : LT Level := ⟨fun a b => a.ordinal < b.ordinal⟩

instance (a b : Level) : Decidable (a ≤ b) := inferInstanceAs (Decidable (a.ordinal ≤ b.ordinal))

instance (a b : Level) : Decidable (a < b) := inferInstanceAs (Decidable (a.ordinal < b.ordinal))

instance : Ord Level := ⟨fun a b => compare a.ordinal b.ordinal⟩

instance : Max Level := maxOfLe

def standard : Level := warn

/-- The name that output shows. -/
def name : Level → String
  | off => "NONE"
  | error => "ERROR"
  | warn => "WARN"
  | info => "INFO"
  | debug => "DEBUG"
  | trace => "TRACE"

def title : Level → String
  | off => "None"
  | error => "Error"
  | warn => "Warn"
  | info => "Info"
  | debug => "Debug"
  | trace => "Trace"

theorem ofOrdinal?_ordinal (l : Level) : ofOrdinal? l.ordinal = some l := by cases l <;> rfl

theorem ordinal_injective {a b : Level} (h : a.ordinal = b.ordinal) : a = b := by
  apply Option.some.inj
  rw [← ofOrdinal?_ordinal a, h, ofOrdinal?_ordinal]

theorem ofWord_word (l : Level) : ofWord l.word = l := by cases l <;> rfl

/-- `l` passes a bound of `max`: a record of level `off` never passes. -/
def passes (l max : Level) : Bool := l ≠ off && l ≤ max

end Level

/-- A level that an event can have: any but `off`. -/
inductive Severity where
  | error | warn | info | debug | trace
  deriving DecidableEq

namespace Severity

def level : Severity → Level
  | error => .error
  | warn => .warn
  | info => .info
  | debug => .debug
  | trace => .trace

def name (s : Severity) : String := s.level.name

def ofLevel? : Level → Option Severity
  | .off => none
  | .error => some error
  | .warn => some warn
  | .info => some info
  | .debug => some debug
  | .trace => some trace

theorem ofLevel?_level (s : Severity) : ofLevel? s.level = some s := by cases s <;> rfl

end Severity

/-- The name of a level as a bound on events. -/
def Level.filterName (l : Level) : String :=
  match Severity.ofLevel? l with
  | none => "OFF"
  | some s => s.name

end LogRelay
