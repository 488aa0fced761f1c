import LogRelay.Errno
import LogRelay.Text.Quoted
import LogRelay.Text.Utf8

/-!
# Faults

Why a request was refused. `Fault.message` has the wording and `Fault.code` the negated error number.
-/

namespace LogRelay

/-- Why an input or output operation failed. -/
inductive IoCause where
  /-- The system refused it with this number. -/
  | os (number : Int)
  /-- It never reached the system. -/
  | other (message : String)
  deriving DecidableEq

namespace IoCause

def message : IoCause → String
  | os n => Errno.messageOf n ++ s!" (os error {n})"
  | other message => message

/-- The number, that of an I/O error where the system gave none. -/
def number : IoCause → Int
  | os n => n
  | other _ => Errno.EIO.number

/-- A path with a NUL in it, which no system call can take. -/
def nulInPath : IoCause := .other "file name contained an unexpected NUL byte"

end IoCause

inductive Fault where
  /-- A cause of the caller's own. -/
  | custom (message : String) (code : Int)
  /-- A number that is no level's ordinal. -/
  | levelNumber (n : Nat)
  /-- A text, trimmed, that names no level. -/
  | levelText (s : String)
  /-- A text, trimmed and in lower case, that names no line format. -/
  | formatText (s : String)
  /-- A text, trimmed, that names no sink, as the value of a variable. -/
  | sinkText (s name : String)
  /-- A variable whose value is no text. -/
  | variableBytes (name : String)
  /-- A variable with the value `value` that needs the variable `missing` beside it. -/
  | variableMissing (name value missing : String)
  | openFailed (path : Bytes) (cause : IoCause)
  | io (cause : IoCause)
  /-- A system error; `none` stands for a number that has no name. -/
  | system (errno : Option Errno)
  deriving DecidableEq

namespace Fault

def message : Fault → String
  | custom message _ => message
  | levelNumber n => s!"invalid log level {n}"
  | levelText s => "invalid log level " ++ Text.quoted s
  | formatText s => "unknown log format " ++ Text.quoted s
  | sinkText s name => "unknown log sink " ++ Text.quoted s ++ " in " ++ name
  | variableBytes name => "unable to parse " ++ name
  | variableMissing name value missing => name ++ "=" ++ value ++ " requires " ++ missing
  | openFailed path cause => "Failed to open log file " ++ Utf8.decode path ++ ": " ++ cause.message
  | io cause => "IO error: " ++ cause.message
  | system none => "Unknown errno"
  | system (some e) => e.description

def code : Fault → Int
  | custom _ code => code
  | openFailed _ cause => -cause.number
  | io cause => -cause.number
  | system none => 0
  | system (some e) => -e.number
  | _ => -Errno.EINVAL.number

def display (f : Fault) : String := f.message ++ s!" (code {f.code})"

end Fault
end LogRelay
