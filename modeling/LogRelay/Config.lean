import LogRelay.Level.Parser

/-!
# Configuration

Four variables of the environment choose the sink, its level, the line format and the log file. A variable that is
unset or blank keeps its default; one that is set and malformed is a fault, the first in the order level, format,
sink, file. The file is looked at only for a file sink.
-/

namespace LogRelay

/-- How a file sink lays out a line. -/
inductive LineFormat where
  | text | json
  deriving DecidableEq

namespace LineFormat

def name : LineFormat → String
  | text => "text"
  | json => "json"

def all : List LineFormat := [text, json]

def ofName? (s : String) : Option LineFormat := all.find? fun f => f.name = s

/-- Reads a format: its name in any case with blanks around it. -/
def parse (s : String) : Except Fault LineFormat :=
  let t := Text.lower (Text.trim s)
  match ofName? t with
  | some f => .ok f
  | none => .error (.formatText t)

end LineFormat

/-- Which sink gets the records. -/
inductive SinkChoice where
  | silent
  | facade
  | file (path : Bytes)
  deriving DecidableEq

/-- How the choice shows in a diagnostic. -/
def SinkChoice.display : SinkChoice → String
  | silent => "None"
  | facade => "Facade"
  | file path => "File(" ++ Text.quotedBytes path ++ ")"

structure Config where
  sink : SinkChoice
  level : Level
  format : LineFormat
  deriving DecidableEq

/-- The values of the variables by name; `none` is unset. -/
abbrev Environment := String → Option Bytes

namespace Environment

def ofList (vars : List (String × Bytes)) : Environment := fun name => vars.lookup name

/-- The text of a variable, none where it is unset or blank. -/
def read (env : Environment) (name : String) : Except Fault (Option String) :=
  match env name with
  | none => .ok none
  | some bs =>
    match Utf8.decode? bs with
    | none => .error (.variableBytes name)
    | some s => .ok (if Text.isAllBlank s then none else some s)

end Environment

namespace Config

def levelVariable : String := "SPA_SUPPORT_LOG_LEVEL"

def formatVariable : String := "SPA_SUPPORT_LOG_FORMAT"

def sinkVariable : String := "SPA_SUPPORT_LOG_SINK"

def fileVariable : String := "SPA_SUPPORT_LOG_FILE"

def standard : Config := ⟨.facade, .standard, .text⟩

def readLevel (env : Environment) : Except Fault Level := do
  match ← env.read levelVariable with
  | some s => Level.parse s
  | none => pure standard.level

def readFormat (env : Environment) : Except Fault LineFormat := do
  match ← env.read formatVariable with
  | some s => LineFormat.parse s
  | none => pure standard.format

def readPath (env : Environment) : Except Fault Bytes := do
  match ← env.read fileVariable with
  | some path => pure (Utf8.ofText path)
  | none => throw (.variableMissing sinkVariable "file" fileVariable)

/-- The sink that the environment chooses: its name as it is, with blanks around it. -/
def readSink (env : Environment) : Except Fault SinkChoice := do
  match (← env.read sinkVariable).map Text.trim with
  | none => pure standard.sink
  | some "facade" => pure .facade
  | some "none" => pure .silent
  | some "file" => return .file (← readPath env)
  | some other => throw (.sinkText other sinkVariable)

def ofEnvironment (env : Environment) : Except Fault Config := do
  let level ← readLevel env
  let format ← readFormat env
  let sink ← readSink env
  return ⟨sink, level, format⟩

end Config
end LogRelay
