import LogRelay.Control
import LogRelay.Errno
import LogRelay.Pipe.Buffer

/-!
# A pipe under control calls

A pipe has a read end and a write end, each a descriptor with flags of its own. `PipeWorld` is a system with one pipe and a
program with one integer: `PipeWorld.kernel` says what its control calls do, and `PipeWorld.step` what else a program does
to the pipe.
-/

namespace LogRelay

inductive PipeEnd where
  | read | write
  deriving DecidableEq

structure EndState where
  isOpen : Bool
  closeOnExec : Bool
  nonBlocking : Bool
  deriving DecidableEq

structure Pipe where
  readNumber : Int32
  writeNumber : Int32
  distinct : readNumber ≠ writeNumber
  reader : EndState
  writer : EndState
  buffer : PipeBuffer
  deriving DecidableEq

/-- A request that pipes know. -/
inductive ControlRequest where
  /-- Store the number of unread bytes in the integer pointed at. -/
  | countUnread
  /-- Set or clear non-blocking operation by the integer pointed at. -/
  | setNonBlocking
  | setCloseOnExec
  | clearCloseOnExec
  deriving DecidableEq

namespace ControlRequest

def all : List ControlRequest := [countUnread, setNonBlocking, setCloseOnExec, clearCloseOnExec]

def number : ControlRequest → UInt32
  | countUnread => 0x541B
  | setNonBlocking => 0x5421
  | setCloseOnExec => 0x5451
  | clearCloseOnExec => 0x5450

/-- The request of a number. The numbers without one are those that a pipe knows nothing of; the few others that a system
serves on every file (its block size, signals on input) count among them here. -/
def ofNumber? (n : UInt32) : Option ControlRequest := all.find? fun r => r.number = n

end ControlRequest

/-- An integer of the program at its address. -/
structure Cell where
  pointer : Pointer Int32
  placed : pointer ≠ .null
  value : Int32
  deriving DecidableEq

/-- A system with a pipe, and a program with an integer. No other word is an address that a control call can use. -/
structure PipeWorld where
  pipe : Pipe
  cell : Cell
  /-- The error number of the last call that failed. -/
  errno : Int32
  deriving DecidableEq

namespace Pipe

/-- An empty pipe with both ends open. -/
def empty (readNumber writeNumber : Int32) (distinct : readNumber ≠ writeNumber) : Pipe :=
  ⟨readNumber, writeNumber, distinct, ⟨true, false, false⟩, ⟨true, false, false⟩, []⟩

/-- The bytes written and not read. -/
def unread (p : Pipe) : Bytes := p.buffer.toBytes

def endState (p : Pipe) : PipeEnd → EndState
  | .read => p.reader
  | .write => p.writer

def setEnd (p : Pipe) (e : PipeEnd) (s : EndState) : Pipe :=
  match e with
  | .read => { p with reader := s }
  | .write => { p with writer := s }

def endOf? (p : Pipe) (fd : Int32) : Option PipeEnd :=
  if fd = p.readNumber then some .read else if fd = p.writeNumber then some .write else none

def open? (p : Pipe) (fd : Int32) : Option (PipeEnd × EndState) :=
  (p.endOf? fd).bind fun e => if (p.endState e).isOpen then some (e, p.endState e) else none

end Pipe

namespace PipeWorld

/-- What the system does on a control call. Of the request it takes the lower half. -/
def control (w : PipeWorld) (fd : Int32) (request word : UInt64) : Except Errno Unit × PipeWorld :=
  match w.pipe.open? fd with
  | none => (.error .EBADF, w)
  | some (e, s) =>
    match ControlRequest.ofNumber? request.toUInt32 with
    | none => (.error .ENOTTY, w)
    | some .setCloseOnExec => (.ok (), { w with pipe := w.pipe.setEnd e { s with closeOnExec := true } })
    | some .clearCloseOnExec => (.ok (), { w with pipe := w.pipe.setEnd e { s with closeOnExec := false } })
    | some .countUnread =>
      if word = w.cell.pointer.address then
        (.ok (), { w with cell := { w.cell with value := .ofNat w.pipe.unread.length } })
      else (.error .EFAULT, w)
    | some .setNonBlocking =>
      if word = w.cell.pointer.address then
        (.ok (), { w with pipe := w.pipe.setEnd e { s with nonBlocking := w.cell.value ≠ 0 } })
      else (.error .EFAULT, w)

/-- An outcome together with the error number that it leaves behind. -/
def leaving {α : Type} : Except Errno α × PipeWorld → Except Errno α × PipeWorld
  | (.ok a, w) => (.ok a, w)
  | (.error e, w) => (.error e, { w with errno := .ofInt e.number })

/-- The system of a pipe. -/
def kernel : Kernel PipeWorld where
  control fd request word w :=
    match leaving (w.control fd request word) with
    | (.ok _, w) => (0, w)
    | (.error _, w) => (-1, w)
  errno := errno

end PipeWorld

inductive PipeStep where
  | control (call : ControlCall)
  /-- Stores a number in the program's integer. -/
  | store (n : Int32)
  | write (fd : Int32) (data : Bytes)
  | read (fd : Int32) (most : Nat)
  | close (fd : Int32)
  | flags (fd : Int32)

inductive PipeAnswer where
  | controlled (a : ControlAnswer)
  | stored
  | moved (count : Except Errno Nat)
  | closed (r : Except Errno Unit)
  | flags (s : Except Errno EndState)

namespace PipeWorld

/-- Writes to an end. What finds no room stays unwritten, and where nothing does the call fails. A write of nothing asks
neither for room nor for a reader. -/
def writeTo (w : PipeWorld) (fd : Int32) (data : Bytes) : Except Errno Nat × PipeWorld :=
  match w.pipe.open? fd with
  | some (.write, _) =>
    if data = [] then (.ok 0, w)
    else if !w.pipe.reader.isOpen then (.error .EPIPE, w)
    else match w.pipe.buffer.write data with
      | (0, _) => (.error .EAGAIN, w)
      | (count, buffer) => (.ok count, { w with pipe := { w.pipe with buffer } })
  | _ => (.error .EBADF, w)

/-- Reads from an end. Where nothing is unread, the end of the data is read once no end can write. -/
def readFrom (w : PipeWorld) (fd : Int32) (most : Nat) : Except Errno Nat × PipeWorld :=
  match w.pipe.open? fd with
  | some (.read, _) =>
    if w.pipe.unread = [] ∧ w.pipe.writer.isOpen ∧ most ≠ 0 then (.error .EAGAIN, w)
    else
      (.ok (min most w.pipe.unread.length), { w with pipe := { w.pipe with buffer := w.pipe.buffer.skip most } })
  | _ => (.error .EBADF, w)

def close (w : PipeWorld) (fd : Int32) : Except Errno Unit × PipeWorld :=
  match w.pipe.open? fd with
  | some (e, s) => (.ok (), { w with pipe := w.pipe.setEnd e { s with isOpen := false } })
  | none => (.error .EBADF, w)

/-- The flags of an end. -/
def flagsOf (w : PipeWorld) (fd : Int32) : Except Errno EndState × PipeWorld :=
  match w.pipe.open? fd with
  | some (_, s) => (.ok s, w)
  | none => (.error .EBADF, w)

def step (w : PipeWorld) : PipeStep → PipeAnswer × PipeWorld
  | .control call => (call.make kernel w).map .controlled id
  | .store n => (.stored, { w with cell := { w.cell with value := n } })
  | .write fd data => (leaving (w.writeTo fd data)).map .moved id
  | .read fd most => (leaving (w.readFrom fd most)).map .moved id
  | .close fd => (leaving (w.close fd)).map .closed id
  | .flags fd => (leaving (w.flagsOf fd)).map .flags id

def run (w : PipeWorld) : List PipeStep → List PipeAnswer × PipeWorld
  | [] => ([], w)
  | s :: rest =>
    let (a, w) := w.step s
    let (as, w) := w.run rest
    (a :: as, w)

end PipeWorld
end LogRelay
