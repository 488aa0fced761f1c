import LogRelay.Format.Directive.Parser

/-!
# Ordered and numbered formats

A format is rendered in order until a directive takes something by its position or is not well formed. From that one
on it is numbered, which changes what `q` means, how a negative width fills, and what becomes of numbers too large to
count. Before it, such a number ends the rendering, as does the end of the format inside a directive. `scheduled` gives
each segment that is rendered its mode.
-/

namespace LogRelay.Format

inductive Mode where
  | ordered | numbered
  deriving DecidableEq

/-- How a format in order goes on at a part of a directive. -/
inductive Turn where
  | onward
  /-- It is numbered from this directive on. -/
  | numbered
  /-- It ends before this directive. -/
  | stop
  deriving DecidableEq

/-- The first turn that is not onward. -/
def Turn.orElse : Turn → Turn → Turn
  | .onward, t => t
  | t, _ => t

def Source.turn : Source → Turn
  | .next => .onward
  | .nth _ => .numbered
  | .excessive => .stop

def Amount.turn : Amount → Turn
  | .given _ => .onward
  | .excessive => .stop
  | .argument source => source.turn

/-- Whether a conversion takes the length modifier: `h` is for integers alone, also those that are stored. -/
def Length.fits : Length → Conversion → Bool
  | .h, .integer _ => true
  | .h, .count => true
  | .h, .percent => true
  | .h, _ => false
  | _, _ => true

/-- A conversion has to be there, to be known and to take its length modifier. -/
def Conversion.turn (c : Conversion) (length : Length) : Turn :=
  match c with
  | .missing => .stop
  | .unknown _ => .numbered
  | c => if length.fits c then .onward else .numbered

/-- The parts of a directive count in the order in which they stand. -/
def Directive.turn (d : Directive) : Turn :=
  d.source.turn.orElse <| ((d.width.map Amount.turn).getD .onward).orElse <|
    ((d.precision.map Amount.turn).getD .onward).orElse <| d.conversion.turn d.length

/-- The segments that are rendered, each with its mode. -/
def scheduled : List Segment → List (Mode × Segment)
  | [] => []
  | .byte b :: rest => (.ordered, .byte b) :: scheduled rest
  | .directive d :: rest =>
    match d.turn with
    | .onward => (.ordered, .directive d) :: scheduled rest
    | .numbered => (.directive d :: rest).map fun s => (.numbered, s)
    | .stop => []

/-- The width in bits of the integer that a length modifier stands for. `q` and `L` widen only in order. -/
def Length.bits (m : Mode) : Length → Nat
  | .hh => 8
  | .h => 16
  | .plain => 32
  | .q => if m = .ordered then 64 else 32
  | .L => if m = .ordered then 64 else 32
  | _ => 64

end LogRelay.Format
