/-!
# UTF-8 text in bytes that need not be UTF-8

`Utf8.encode` writes characters as bytes. `Utf8.read` takes bytes one at a time and keeps, newest first, what
is settled: a character, or an invalid piece that no later byte can complete. At most one character is begun
and not finished, so the bytes read so far are the settled pieces followed by that one, and more bytes only
add to what is settled.
-/

namespace LogRelay

/-- A byte string. -/
abbrev Bytes := List UInt8

namespace Utf8

/-- Characters as bytes, one to four for each. -/
def encode (cs : List Char) : Bytes := cs.flatMap String.utf8EncodeChar

def ofText (s : String) : Bytes := encode s.toList

/-- A character begun and not finished. The next byte belongs to it iff it lies in `low` to `high`. -/
structure Begun where
  /-- The bytes read of it. -/
  bytes : Bytes
  /-- How many bytes are still to come. -/
  missing : Nat
  low : UInt8
  high : UInt8
  /-- The code point's bits read so far. -/
  bits : Nat
  deriving DecidableEq

/-- What the first byte of a longer character begins. The bounds on the second byte leave out overlong forms,
surrogates and all beyond U+10FFFF. -/
def Begun.first? (b : UInt8) : Option Begun :=
  if 0xC2 ≤ b ∧ b ≤ 0xDF then some ⟨[b], 1, 0x80, 0xBF, b.toNat % 32⟩
  else if b = 0xE0 then some ⟨[b], 2, 0xA0, 0xBF, 0⟩
  else if b = 0xED then some ⟨[b], 2, 0x80, 0x9F, 0xD⟩
  else if 0xE1 ≤ b ∧ b ≤ 0xEF then some ⟨[b], 2, 0x80, 0xBF, b.toNat % 16⟩
  else if b = 0xF0 then some ⟨[b], 3, 0x90, 0xBF, 0⟩
  else if 0xF1 ≤ b ∧ b ≤ 0xF3 then some ⟨[b], 3, 0x80, 0xBF, b.toNat % 8⟩
  else if b = 0xF4 then some ⟨[b], 3, 0x80, 0x8F, 4⟩
  else none

/-- A settled part of the input. -/
inductive Piece where
  | char (c : Char)
  | invalid (bytes : Bytes)
  deriving DecidableEq

/-- The input read so far. -/
structure Decoder where
  /-- The settled pieces, newest first. -/
  done : List Piece
  begun : Option Begun
  deriving DecidableEq

namespace Decoder

/-- Reads `b` where no character is begun. -/
def start (done : List Piece) (b : UInt8) : Decoder :=
  if b < 0x80 then ⟨.char (Char.ofNat b.toNat) :: done, none⟩
  else match Begun.first? b with
    | some s => ⟨done, some s⟩
    | none => ⟨.invalid [b] :: done, none⟩

/-- Reads one byte. A byte that the begun character cannot use settles that one as invalid and starts anew. -/
def feed (d : Decoder) (b : UInt8) : Decoder :=
  match d.begun with
  | none => start d.done b
  | some s =>
    if s.low ≤ b ∧ b ≤ s.high then
      let bits := s.bits * 64 + b.toNat % 64
      if s.missing = 1 then ⟨.char (Char.ofNat bits) :: d.done, none⟩
      else ⟨d.done, some ⟨s.bytes ++ [b], s.missing - 1, 0x80, 0xBF, bits⟩⟩
    else start (.invalid s.bytes :: d.done) b

end Decoder

/-- The state after all of `bs`. -/
def read (bs : Bytes) : Decoder := bs.foldl Decoder.feed ⟨[], none⟩

/-- The pieces of `bs` that no further byte can change. -/
def settled (bs : Bytes) : List Piece := (read bs).done.reverse

/-- The pieces of `bs`, an unfinished character at its end counting as invalid. -/
def pieces (bs : Bytes) : List Piece :=
  match (read bs).begun with
  | none => settled bs
  | some s => settled bs ++ [.invalid s.bytes]

/-- The replacement character U+FFFD. -/
def replacement : Char := Char.ofNat 0xFFFD

/-- How a piece shows in a text. -/
def Piece.shown : Piece → Char
  | .char c => c
  | .invalid _ => replacement

/-- The text of `bs` with one replacement character for each invalid piece. -/
def decode (bs : Bytes) : String := String.ofList ((pieces bs).map Piece.shown)

/-- The text of `bs` that may have been cut off inside a character: what is left of that character is dropped. -/
def decodeCut (bs : Bytes) : String := String.ofList ((settled bs).map Piece.shown)

def Piece.char? : Piece → Option Char
  | .char c => some c
  | .invalid _ => none

/-- The text of `bs`, which has to be UTF-8 throughout. -/
def decode? (bs : Bytes) : Option String := ((pieces bs).mapM Piece.char?).map String.ofList

end Utf8
end LogRelay
