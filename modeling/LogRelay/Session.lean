import LogRelay.Client
import LogRelay.Sink

/-!
# Sessions

A session is a run of a program that logs: it makes sinks, interfaces over them, copies of their handles as a host holds
them, and clients, and logs through all of these. Objects go by name. `Session.step` says what one step answers, what
there is to see of it, and what the session is afterwards. Every delivery passes `Session.receive`, where the panic of a
sink ends: it is reported to the logger and the call returns, unless the logger panics on the report. What a panic carries
is no part of this: it is taken to be dropped without a further panic.
-/

namespace LogRelay

/-- An interface over a sink. -/
structure Interface where
  handle : Handle
  receiver : ReceiverId
  sink : String
  deriving DecidableEq

/-- Something made from an interface, which goes when that goes. -/
structure Derived (α : Type) where
  /-- The name of the interface. -/
  origin : Option String
  value : α

structure Session where
  sinks : List (String × Sink)
  interfaces : List (String × Interface)
  hosts : List (String × Derived Handle)
  clients : List (String × Derived Client)
  files : Files
  logger : Logger
  next : ReceiverId

/-- What there is to see of a step. -/
inductive Event where
  | recorded (sink : String) (r : Record)
  | panicked (sink : String) (r : Record)
  | facade (e : FacadeEvent)
  | diagnostic (d : Diagnostic)
  | appended (path text : String)
  deriving DecidableEq

inductive SinkRequest where
  | recorder
  | panicking
  | silent
  | facade (bound : Level)
  | file (path : Bytes) (bound : Level) (format : LineFormat)
  | configured (c : Config)
  | environment (env : Environment)

/-- How the copy of a handle differs from it. -/
structure Alteration where
  version : UInt32
  methods : Bool
  logv : Bool
  logtv : Bool
  receiver : Bool
  level : Option UInt32
  deriving DecidableEq

/-- A copy of a handle with a table of its own. -/
def Alteration.apply (a : Alteration) (h : Handle) : Handle where
  typeName := h.typeName
  version := h.version
  methods := if a.methods then some ⟨a.version,
    [.log] ++ (if a.logv then [.logv] else []) ++ [.logt] ++ (if a.logtv then [.logtv] else []), false⟩ else none
  receiver := if a.receiver then h.receiver else none
  level := a.level.getD h.level

structure Description where
  typeName : String
  handleType : String
  version : UInt32
  level : Level
  levelWord : UInt32
  methodsVersion : UInt32
  topicInitNull : Bool
  ownMethods : Bool
  receiverNull : Bool
  receiverIsSink : Bool
  /-- Whether another interface has the same receiver. -/
  shared : Bool
  deriving DecidableEq

inductive Step where
  | makeSink (name : String) (request : SinkRequest)
  | makeInterface (name sink : String) (level : Level)
  | copyHandle (name interface : String) (alteration : Alteration)
  | destroy (interface : String)
  /-- A client of an interface of the program itself. -/
  | ownClient (name interface : String)
  /-- A client of any handle, `none` for the null handle. -/
  | connect (name : String) (on : Option String)
  | call (on : Option String) (route : Route) (c : Call)
  | send (client : String) (r : Record)
  | guarded (client : String) (g : GuardedCall)
  | levelEnabled (client : String) (level : Level) (topic : Option Topic)
  | hand (sink : String) (r : Record)
  | flush (sink : String)
  | replaceFile (path content : Bytes)
  | makeDirectory (path : Bytes)
  /-- The system refuses to open a path with this number from now on, or no longer. -/
  | refuse (path : Bytes) (number : Option Int)
  | setBound (bound : Level)

inductive Answer where
  | done
  | made
  | refused (f : Fault)
  | described (d : Description)
  /-- The level of a client, none where the handle was refused. -/
  | connected (level : Option Level)
  | decided (b : Bool)
  /-- No object has this name. -/
  | unknown (name : String)
  /-- A panic reached the caller. -/
  | unwound
  /-- A panic left the receiver, which ends the program. -/
  | aborted
  deriving DecidableEq

namespace Session

def initial : Session := ⟨[], [], [], [], .initial, .calm, 1⟩

def interfaceOf? (s : Session) (receiver : ReceiverId) : Option Interface :=
  (s.interfaces.find? fun i => i.2.receiver = receiver).map Prod.snd

/-- The handle of an interface or a host, and the interface it is from. -/
def handle? (s : Session) (name : String) : Option (Derived Handle) :=
  match s.interfaces.lookup name with
  | some i => some ⟨some name, i.handle⟩
  | none => s.hosts.lookup name

/-- Puts a sink in the place of the one of its name. -/
def setSink (s : Session) (name : String) (sink : Sink) : Session :=
  { s with sinks := s.sinks.map fun e => if e.1 = name then (name, sink) else e }

/-- The lines written, under each path that the file was opened by. -/
def appendedEvents (files : Files) (written : Option (NodeId × String)) : List Event :=
  match written with
  | none => []
  | some (node, line) => (files.pathsOf node).map fun path => .appended path line

/-- What there is to see of a sink's reaction, but for the files. -/
def reactionEvents (name : String) (a : Reaction) : List Event :=
  (a.noted.map fun r => if a.panicked then .panicked name r else .recorded name r).toList ++
    (a.facade.map .facade).toList

/-- Hands a record to the sink of a name. Events of files come last, after what `report` adds. -/
def handOver (s : Session) (now name : String) (sink : Sink) (r : Record) (report : Reaction → List Event) :
    Session × List Event × Reaction :=
  let a := sink.accept s.logger s.files now r
  ({ s.setSink name a.sink with files := a.files },
    reactionEvents name a ++ report a ++ appendedEvents a.files a.written, a)

/-- Whether a panic leaves the receiver, and what is reported of a reaction. -/
def contain (logger : Logger) (r : Record) (a : Reaction) : List Event × Bool :=
  if a.panicked then
    let (shown, escaped) := logger.emit (.panicked r.file r.line r.func)
    (shown.map .diagnostic, escaped)
  else ([], false)

/-- Takes a delivery to the sink of its receiver. The last component says whether a panic left the receiver. -/
def receive (s : Session) (now : String) (d : Option Delivery) : Session × List Event × Bool :=
  match d with
  | none => (s, [], false)
  | some d =>
    match s.interfaceOf? d.receiver with
    | none => (s, [], false)
    | some i =>
      match s.sinks.lookup i.sink with
      | none => (s, [], false)
      | some sink =>
        let (s', events, a) := s.handOver now i.sink sink d.record fun a => (contain s.logger d.record a).1
        (s', events, (contain s.logger d.record a).2)

/-- A step that makes a delivery. -/
def deliver (s : Session) (now : String) (d : Option Delivery) : Session × Answer × List Event :=
  let (s, events, escaped) := s.receive now d
  (s, if escaped then .aborted else .done, events)

/-- Reports a diagnostic and goes on, unless the logger panics. -/
def report (s : Session) (d : Diagnostic) (next : Session × Answer × List Event) : Session × Answer × List Event :=
  let (shown, escaped) := s.logger.emit d
  if escaped then (s, .unwound, shown.map .diagnostic)
  else (next.1, next.2.1, shown.map .diagnostic ++ next.2.2)

def addSink (s : Session) (name : String) (made : Except Fault (Sink × Files)) : Session × Answer × List Event :=
  match made with
  | .ok (sink, files) => ({ s with sinks := (name, sink) :: s.sinks, files := files }, .made, [])
  | .error f => (s, .refused f, [])

/-- Puts a configuration into effect, which is reported first. -/
def configure (s : Session) (name : String) (c : Config) : Session × Answer × List Event :=
  s.report (.chosen c.sink c.level) (s.addSink name (c.openSink s.files))

def makeSink (s : Session) (name : String) : SinkRequest → Session × Answer × List Event
  | .recorder => s.addSink name (.ok (.recording, s.files))
  | .panicking => s.addSink name (.ok (.panicking, s.files))
  | .silent => s.addSink name (.ok (.silent, s.files))
  | .facade bound => s.addSink name (.ok (.facade bound, s.files))
  | .file path bound format => s.addSink name (Sink.openFile s.files path bound format)
  | .configured c => s.configure name c
  | .environment env =>
    match Config.ofEnvironment env with
    | .ok c => s.configure name c
    | .error f => (s, .refused f, [])

def describe (s : Session) (name sink : String) (i : Interface) : Description where
  typeName := Handle.logType
  handleType := i.handle.typeName
  version := i.handle.version
  level := .ofWord i.handle.level
  levelWord := i.handle.level
  methodsVersion := Methods.own.version
  topicInitNull := !Methods.own.topicInit
  ownMethods := i.handle.methods = some Methods.own
  receiverNull := i.handle.receiver.isNone
  receiverIsSink := i.sink = sink
  shared := s.interfaces.any fun e => e.1 ≠ name && e.2.receiver = i.receiver

def makeInterface (s : Session) (name sink : String) (level : Level) : Session × Answer × List Event :=
  match s.sinks.lookup sink with
  | none => (s, .unknown sink, [])
  | some _ =>
    let i : Interface := ⟨.own s.next level, s.next, sink⟩
    let made := { s with interfaces := (name, i) :: s.interfaces, next := s.next + 1 }
    s.report (.created level) (made, .described (made.describe name sink i), [])

/-- Forgets an interface and all that was made from it. -/
def destroy (s : Session) (interface : String) : Session :=
  { s with
    interfaces := s.interfaces.filter fun e => e.1 ≠ interface
    hosts := s.hosts.filter fun e => e.2.origin ≠ some interface
    clients := s.clients.filter fun e => e.2.origin ≠ some interface }

def addClient (s : Session) (name : String) (origin : Option String) (c : Client) : Session × Answer × List Event :=
  ({ s with clients := (name, ⟨origin, c⟩) :: s.clients }, .connected (some c.level), [])

/-- Connects to a handle; one that is too old is reported. -/
def connectHandle (s : Session) (name : String) (origin : Option String) (h : Option Handle) :
    Session × Answer × List Event :=
  match Client.connect h with
  | .ok c => s.addClient name origin c
  | .error (.tooOld version) => s.report (.tooOld version Methods.requiredVersion) (s, .connected none, [])
  | .error _ => (s, .connected none, [])

/-- Goes on with the value that a name has in a table. -/
def withNamed {α : Type} (s : Session) (table : List (String × α)) (name : String)
    (next : α → Session × Answer × List Event) : Session × Answer × List Event :=
  match table.lookup name with
  | some a => next a
  | none => (s, .unknown name, [])

/-- Goes on with the handle of a name, and the interface it is from; no name stands for the null handle. -/
def withHandle (s : Session) (on : Option String)
    (next : Option String → Option Handle → Session × Answer × List Event) : Session × Answer × List Event :=
  match on with
  | none => next none none
  | some name =>
    match s.handle? name with
    | some h => next h.origin (some h.value)
    | none => (s, .unknown name, [])

/-- One step at the time `now`. -/
def step (s : Session) (now : String) : Step → Session × Answer × List Event
  | .makeSink name request => s.makeSink name request
  | .makeInterface name sink level => s.makeInterface name sink level
  | .copyHandle name interface alteration =>
    s.withNamed s.interfaces interface fun i =>
      ({ s with hosts := (name, ⟨some interface, alteration.apply i.handle⟩) :: s.hosts }, .made, [])
  | .destroy interface => s.withNamed s.interfaces interface fun _ => (s.destroy interface, .done, [])
  | .ownClient name interface =>
    s.withNamed s.interfaces interface fun i => s.addClient name (some interface) (.ofOwn i.handle)
  | .connect name on => s.withHandle on fun origin h => s.connectHandle name origin h
  | .call on route c => s.withHandle on fun _ h => s.deliver now (route.deliver h c)
  | .send client r => s.withNamed s.clients client fun c => s.deliver now (c.value.send r)
  | .guarded client g => s.withNamed s.clients client fun c => s.deliver now (c.value.expand g)
  | .levelEnabled client level topic =>
    s.withNamed s.clients client fun c => (s, .decided (c.value.levelEnabled level topic), [])
  | .hand sink r =>
    s.withNamed s.sinks sink fun k =>
      let (s, events, a) := s.handOver now sink k r fun _ => []
      (s, if a.panicked then .unwound else .done, events)
  | .flush sink => s.withNamed s.sinks sink fun _ => (s, .done, [])
  | .replaceFile path content => ({ s with files := s.files.replace path content }, .done, [])
  | .makeDirectory path => ({ s with files := s.files.makeDirectory path }, .done, [])
  | .refuse path number => ({ s with files := s.files.refuse path number }, .done, [])
  | .setBound bound => ({ s with logger := { s.logger with bound := bound } }, .done, [])

/-- Steps one after the other, each at its time: what each answers and shows, and the session after them. -/
def run (s : Session) : List (String × Step) → Session × List (Answer × List Event)
  | [] => (s, [])
  | (now, step) :: rest =>
    let (s, answer, events) := s.step now step
    let (s, results) := s.run rest
    (s, (answer, events) :: results)

end Session
end LogRelay
