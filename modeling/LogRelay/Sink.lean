import LogRelay.Diagnostic
import LogRelay.Files
import LogRelay.Sink.Line

/-!
# Sinks

Where records end up. A recorder keeps them and may panic; the facade sink makes events of them for the logger; a file
sink appends lines. The last two show only records that their bound enables. `Sink.accept` is what one record does.
-/

namespace LogRelay

/-- A sink of a test: it notes what it gets. -/
structure Recorder where
  /-- Whether it panics, by all the records it has got, the newest first. -/
  panics : List Record → Bool
  received : List Record

inductive Sink where
  | recorder (r : Recorder)
  | silent
  | facade (bound : Level)
  | file (bound : Level) (format : LineFormat) (node : NodeId)

namespace Sink

def recording : Sink := recorder ⟨fun _ => false, []⟩

def panicking : Sink := recorder ⟨fun _ => true, []⟩

end Sink

/-- What one record does to its sink and to the files, what there is to see of it, and whether the sink panics. -/
structure Reaction where
  sink : Sink
  files : Files
  noted : Option Record
  facade : Option FacadeEvent
  /-- The line written, and the node it was appended to. -/
  written : Option (NodeId × String)
  panicked : Bool

def Record.facadeEvent? (r : Record) : Option FacadeEvent :=
  (Severity.ofLevel? r.level).map fun severity => ⟨severity, r.target, r.statement, r.file, r.line⟩

namespace Sink

def ignore (s : Sink) (files : Files) : Reaction := ⟨s, files, none, none, none, false⟩

def accept (s : Sink) (logger : Logger) (files : Files) (now : String) (r : Record) : Reaction :=
  match s with
  | recorder k =>
    let received := r :: k.received
    { recorder { k with received := received } |>.ignore files with noted := some r, panicked := k.panics received }
  | silent => s.ignore files
  | facade bound =>
    if r.isEnabled bound then
      match r.facadeEvent? with
      | some e => { s.ignore files with facade := some e, panicked := logger.panics (.facade e) }
      | none => s.ignore files
    else s.ignore files
  | file bound format node =>
    if r.isEnabled bound then
      let line := format.line r now
      { s.ignore (files.append node (Utf8.ofText line)) with written := some (node, line) }
    else s.ignore files

def openFile (files : Files) (path : Bytes) (bound : Level) (format : LineFormat) : Except Fault (Sink × Files) :=
  match files.openAppend path with
  | .ok (node, files) => .ok (file bound format node, files)
  | .error cause => .error (.openFailed path cause)

end Sink

def Config.openSink (c : Config) (files : Files) : Except Fault (Sink × Files) :=
  match c.sink with
  | .silent => .ok (.silent, files)
  | .facade => .ok (.facade c.level, files)
  | .file path => Sink.openFile files path c.level c.format

end LogRelay
