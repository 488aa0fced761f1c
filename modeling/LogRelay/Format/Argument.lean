import LogRelay.Floating
import LogRelay.Format.Mode
import LogRelay.Text.Terminated

/-!
# Arguments of a format

The arguments behind a format are of three classes: words, doubles and long doubles. In order, a directive gets the next
argument of the class it asks for. A numbered format says of which class the argument at each position is, and
`distribute` then puts the arguments of a class into its positions in their order; where the classes are those of the
arguments, every argument stays where it is. A position that is used as two classes is of the later one, and the other
use reads its bits.
-/

namespace LogRelay.Format

/-- An argument behind a format. -/
inductive Argument where
  | word (w : UInt64)
  /-- The address of a text, and the bytes there. -/
  | text (address : UInt64) (bs : Bytes)
  | real (x : Binary64)
  | extended (x : Extended80)
  deriving DecidableEq

inductive ArgumentClass where
  | word | real | extended
  deriving DecidableEq

namespace Argument

/-- The class of an argument. A pointer is passed as a word. -/
def kind : Argument → ArgumentClass
  | word _ => .word
  | text _ _ => .word
  | real _ => .real
  | extended _ => .extended

/-- What is there where no argument of the class is left. -/
def absent : ArgumentClass → Argument
  | .word => word 0
  | .real => real ⟨0⟩
  | .extended => extended ⟨0, 0⟩

/-- A pointer to text as an argument, which lies at the address unless the pointer is null. -/
def ofPointer (address : UInt64) : TextPointer → Argument
  | some bs => text address bs
  | none => word 0

/-- Read as a word, a pointer by its address and a number by its lowest bits. -/
def toWord : Argument → UInt64
  | word w => w
  | text address _ => address
  | real x => x.bits
  | extended x => x.significand

/-- Read as a pointer to text; an argument of another kind reads as null. -/
def toText : Argument → TextPointer
  | text _ bs => some bs
  | _ => none

/-- Read as a floating-point number, a long double if `kind` is that of one. Another argument is read by the bits of its
word. -/
def toFloating (kind : ArgumentClass) (a : Argument) : Floating :=
  match kind, a with
  | .extended, extended x => x.floating
  | .extended, a => Extended80.floating ⟨0, a.toWord⟩
  | _, a => Binary64.floating ⟨a.toWord⟩

/-- Read as a 32-bit integer. -/
def toInt (a : Argument) : Int := Int.bmod a.toWord.toNat (Nat.pow 2 32)

end Argument

/-! ## Which directive takes which argument -/

/-- The index of the argument that a source names, where so many were taken in order, and how many were taken then. -/
def Source.index (s : Source) (taken : Nat) : Nat × Nat :=
  match s with
  | .nth index => (index, taken)
  | _ => (taken, taken + 1)

/-- Whether a modifier asks for a long double. -/
def Length.isExtended : Length → Bool
  | .ll => true
  | .q => true
  | .L => true
  | _ => false

/-- The class of the argument that a conversion takes, if it takes one. -/
def Conversion.kind? (length : Length) : Conversion → Option ArgumentClass
  | .integer _ => some .word
  | .real _ _ => some (if length.isExtended then .extended else .real)
  | .character _ => some .word
  | .text _ => some .word
  | .pointer => some .word
  | .count => some .word
  | _ => none

/-- That the argument at an index is taken as one of a class. -/
structure Use where
  index : Nat
  kind : ArgumentClass
  deriving DecidableEq

/-- The use that a source makes, if it is used, and how many arguments were taken in order then. -/
def Source.uses (s : Source) (kind : Option ArgumentClass) (taken : Nat) : List Use × Nat :=
  match kind with
  | none => ([], taken)
  | some kind =>
    let (index, taken) := s.index taken
    ([⟨index, kind⟩], taken)

/-- The use that a width or a precision makes: as an argument it is a word. -/
def amountUses (a : Option Amount) (taken : Nat) : List Use × Nat :=
  match a with
  | some (.argument source) => source.uses (some .word) taken
  | _ => ([], taken)

/-- The uses that a directive makes: its width, its precision and its value. -/
def Directive.uses (d : Directive) (taken : Nat) : List Use × Nat :=
  let (width, taken) := amountUses d.width taken
  let (precision, taken) := amountUses d.precision taken
  let (value, taken) := d.source.uses (d.conversion.kind? d.length) taken
  (width ++ precision ++ value, taken)

/-- The uses that segments make, after so many arguments were taken in order. -/
def segmentUses : List (Mode × Segment) → Nat → List Use
  | [], _ => []
  | (_, .byte _) :: rest, taken => segmentUses rest taken
  | (_, .directive d) :: rest, taken =>
    let (uses, taken) := d.uses taken
    uses ++ segmentUses rest taken

def useCount (uses : List Use) : Nat := uses.foldl (fun n u => max n (u.index + 1)) 0

/-- Notes a use among the classes of the arguments. Of two uses the later counts, and what is not used is a word. -/
def noteUse (classes : Array ArgumentClass) (u : Use) : Array ArgumentClass :=
  if u.index < classes.size then classes.setIfInBounds u.index u.kind
  else (classes ++ Array.replicate (u.index - classes.size) ArgumentClass.word).push u.kind

def argumentClasses (uses : List Use) : List ArgumentClass := (uses.foldl noteUse #[]).toList

/-- The first argument of a class. -/
def first (kind : ArgumentClass) (as : List Argument) : Argument := (as.find? fun a => a.kind = kind).getD (.absent kind)

/-- The arguments without the first of a class. -/
def others (kind : ArgumentClass) (as : List Argument) : List Argument := as.eraseP fun a => a.kind = kind

@[simp] theorem first_kind (a : Argument) (as : List Argument) : first a.kind (a :: as) = a := by simp [first]

@[simp] theorem others_kind (a : Argument) (as : List Argument) : others a.kind (a :: as) = as := by simp [others]

/-- Puts the arguments of each class into its positions in their order. -/
def distribute : List ArgumentClass → List Argument → List Argument
  | [], _ => []
  | kind :: rest, as => first kind as :: distribute rest (others kind as)

theorem distribute_kind (as : List Argument) : distribute (as.map Argument.kind) as = as := by
  induction as with
  | nil => rfl
  | cons a as ih => rw [List.map_cons, distribute, first_kind, others_kind, ih]

/-! ## Taking arguments -/

structure Arguments where
  /-- Those not yet taken in order. -/
  left : List Argument
  /-- How many were taken in order. -/
  taken : Nat
  /-- All of them, each at its position. -/
  placed : List Argument

namespace Arguments

def ofUses (uses : List Use) (args : List Argument) : Arguments := ⟨args, 0, distribute (argumentClasses uses) args⟩

def next (as : Arguments) (kind : ArgumentClass) : Argument × Arguments :=
  (first kind as.left, { as with left := others kind as.left, taken := as.taken + 1 })

/-- The argument at the place that a source names. -/
def pick (as : Arguments) (s : Source) : Argument × Arguments :=
  let (index, taken) := s.index as.taken
  (as.placed.getD index (.absent .word), { as with taken := taken })

def take (as : Arguments) (m : Mode) (kind : ArgumentClass) (s : Source) : Argument × Arguments :=
  match m with
  | .ordered => as.next kind
  | .numbered => as.pick s

/-- The number that an amount comes to, if there is one. An excessive amount counts as none. -/
def amount? (as : Arguments) (m : Mode) : Option Amount → Option Int × Arguments
  | none => (none, as)
  | some (.given n) => (some n, as)
  | some .excessive => (none, as)
  | some (.argument source) =>
    let (a, as) := as.take m .word source
    (some a.toInt, as)

end Arguments

/-- More arguments than this are never collected. -/
def maxArguments : Nat := Nat.pow 2 24

/-- The segments of a format that are rendered: those in order alone, where the format would be numbered and needs more
arguments than can be collected. -/
def collectable (ss : List (Mode × Segment)) : List (Mode × Segment) :=
  if useCount (segmentUses ss 0) ≤ maxArguments then ss else ss.takeWhile fun s => s.1 = .ordered

end LogRelay.Format
