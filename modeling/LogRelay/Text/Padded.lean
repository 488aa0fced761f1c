/-!
# Padded text

A text cut to a number of characters and then padded to a width, its place among the padding chosen by an
alignment. Centred text that cannot stand in the middle has the odd blank on its right.
-/

namespace LogRelay.Text

inductive Alignment where
  | left | centre | right
  deriving DecidableEq

structure Padding where
  alignment : Alignment
  fill : Char
  width : Nat
  precision : Option Nat
  deriving DecidableEq

/-- `cs` at its place among `missing` fill characters. -/
def Padding.place (p : Padding) (cs : List Char) (missing : Nat) : List Char :=
  match p.alignment with
  | .left => cs ++ List.replicate missing p.fill
  | .right => List.replicate missing p.fill ++ cs
  | .centre => List.replicate (missing / 2) p.fill ++ cs ++ List.replicate (missing - missing / 2) p.fill

def Padding.apply (p : Padding) (s : String) : String :=
  let cs := match p.precision with
    | some most => s.toList.take most
    | none => s.toList
  String.ofList (p.place cs (p.width - cs.length))

/-- `s` on the right of so many columns. -/
def rightAligned (width : Nat) (s : String) : String := Padding.apply ⟨.right, ' ', width, none⟩ s

end LogRelay.Text
