import LogRelay.Config

/-!
# Diagnostics

What the library reports about itself, through the same logger that the facade sink writes to. The logger's bound
holds for diagnostics only. `Logger.emit` hands one over; a logger may panic on what it gets.
-/

namespace LogRelay

inductive Diagnostic where
  | created (level : Level)
  /-- A configuration is about to be put into effect. -/
  | chosen (sink : SinkChoice) (level : Level)
  /-- A handle with a table of this version was refused. -/
  | tooOld (version required : UInt32)
  /-- A sink panicked on the record from this place. -/
  | panicked (file : String) (line : UInt32) (func : String)
  deriving DecidableEq

namespace Diagnostic

def severity : Diagnostic → Severity
  | created _ => .trace
  | chosen _ _ => .debug
  | tooOld _ _ => .debug
  | panicked _ _ _ => .error

/-- The part of the library that reports. -/
def target : Diagnostic → String
  | created _ => "spa_support_ffi::logging::interface"
  | chosen _ _ => "spa_support_ffi::config"
  | tooOld _ _ => "spa_support_ffi::logging::client"
  | panicked _ _ _ => "spa_support_ffi::logging::receiver"

/-- The text. Addresses are left out: `PTR` stands for one. -/
def message : Diagnostic → String
  | created level => "created log interface PTR at level " ++ level.name
  | chosen sink level => "using " ++ sink.display ++ " log sink at level " ++ level.name
  | tooOld version required =>
    "log methods version " ++ toString version.toNat ++ " too old, need " ++ toString required.toNat
  | panicked file line func => "log sink panicked handling " ++ file ++ ":" ++ toString line.toNat ++ " " ++ func

end Diagnostic

/-- An event that the facade sink makes of a record. -/
structure FacadeEvent where
  severity : Severity
  target : String
  text : String
  file : String
  line : UInt32
  deriving DecidableEq

inductive LoggerEntry where
  | facade (e : FacadeEvent)
  | diagnostic (d : Diagnostic)
  deriving DecidableEq

/-- The logger installed behind the facade. -/
structure Logger where
  /-- The bound on diagnostics. -/
  bound : Level
  /-- The entries that it panics on. -/
  panics : LoggerEntry → Bool

namespace Logger

def calm : Logger := ⟨.trace, fun _ => false⟩

def shows (l : Logger) (d : Diagnostic) : Bool := d.severity.level ≤ l.bound

/-- What reaches the logger of a diagnostic, and whether the logger panics on it. -/
def emit (l : Logger) (d : Diagnostic) : List Diagnostic × Bool :=
  if l.shows d then ([d], l.panics (.diagnostic d)) else ([], false)

end Logger
end LogRelay
