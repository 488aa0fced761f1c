/-!
# Control calls

With a control call a program asks the system for something about a descriptor, by the number of a request and one word.
What a call does is the system's affair, so the system is a parameter here. In front of its call stands an adapter with a
variadic tail, which takes one signed word from it, whatever was put there. The functions of fixed arity go through the
adapter: one with a word, one with an address, and one that gives a result in place of the number.
-/

namespace LogRelay

/-- The address of something of a type, or of `Unit` where the type is left open. -/
structure Pointer (α : Type) where
  address : UInt64
  deriving DecidableEq

namespace Pointer

def null {α : Type} : Pointer α := ⟨0⟩

def cast {α β : Type} (p : Pointer α) : Pointer β := ⟨p.address⟩

end Pointer

/-- An argument in a variadic tail. Each fills a word. -/
inductive Variadic where
  | long (n : Int64)
  | pointer (p : Pointer Unit)
  deriving DecidableEq

/-- The argument read as a signed word, which it need not have been. -/
def Variadic.toLong : Variadic → Int64
  | long n => n
  | pointer p => p.address.toInt64

/-- A system whose states are of a type, as control calls see it. -/
structure Kernel (σ : Type) where
  /-- Does what a request asks for about a descriptor, with a word. The number is -1 where it fails. -/
  control (fd : Int32) (request word : UInt64) (s : σ) : Int32 × σ
  /-- The error number of the last failure. -/
  errno : σ → Int32

namespace Kernel
variable {σ : Type} (k : Kernel σ)

/-- The adapter. It takes the first of its tail as a signed word and looks neither at the rest nor at the object. -/
def adapter (_object : Pointer Unit) (fd : Int32) (request : UInt64) (first : Variadic) (_rest : List Variadic) (s : σ) :
    Int32 × σ :=
  let arg := first.toLong
  k.control fd request arg.toUInt64 s

/-- The adapter as it is handed to a host. -/
def ioctlAdapter : Pointer Unit → Int32 → UInt64 → Variadic → List Variadic → σ → Int32 × σ := k.adapter

def ioctl (fd : Int32) (request : UInt64) (arg : Int64) (s : σ) : Int32 × σ :=
  k.adapter .null fd request (.long arg) [] s

def ioctlPtr {α : Type} (fd : Int32) (request : UInt64) (arg : Pointer α) (s : σ) : Int32 × σ :=
  k.adapter .null fd request (.pointer arg.cast) [] s

/-- The last error, by its number. An error number has a name if it is one of the 133 of the system but for two that were
never given out. Any other comes out as 0. -/
def lastError (s : σ) : Int32 :=
  let n := k.errno s
  if 1 ≤ n ∧ n ≤ 133 ∧ n ≠ 41 ∧ n ≠ 58 then n else 0

/-- A number by the convention of the system's calls as a result: the last error stands behind -1. -/
def resultOf (n : Int32) (s : σ) : Except Int32 Int32 := if n = -1 then .error (k.lastError s) else .ok n

def ioctlResult (fd : Int32) (request : UInt64) (arg : Int64) (s : σ) : Except Int32 Int32 × σ :=
  let (n, s) := k.ioctl fd request arg s
  (k.resultOf n s, s)

end Kernel

/-- A control call of a program, by the function that it goes through. -/
inductive ControlCall where
  | word (fd : Int32) (request : UInt64) (arg : Int64)
  | pointer (fd : Int32) (request : UInt64) (arg : Pointer Int32)
  | checked (fd : Int32) (request : UInt64) (arg : Int64)
  | adapter (object : Pointer Unit) (fd : Int32) (request : UInt64) (first : Variadic) (rest : List Variadic)

/-- What a program learns from a control call. -/
inductive ControlAnswer where
  /-- A number, and the error number that the program finds behind -1. -/
  | number (n : Int32) (errno : Option Int32)
  | result (r : Except Int32 Int32)

/-- A number with a look at the error number. -/
def ControlAnswer.ofNumber {σ : Type} (k : Kernel σ) (outcome : Int32 × σ) : ControlAnswer × σ :=
  let (n, s) := outcome
  (.number n (if n = -1 then some (k.errno s) else none), s)

/-- Makes the call. -/
def ControlCall.make {σ : Type} (call : ControlCall) (k : Kernel σ) (s : σ) : ControlAnswer × σ :=
  match call with
  | word fd request arg => ControlAnswer.ofNumber k (k.ioctl fd request arg s)
  | pointer fd request arg => ControlAnswer.ofNumber k (k.ioctlPtr fd request arg s)
  | checked fd request arg =>
    let (r, s) := k.ioctlResult fd request arg s
    (.result r, s)
  | adapter object fd request first rest => ControlAnswer.ofNumber k (k.ioctlAdapter object fd request first rest s)

end LogRelay
