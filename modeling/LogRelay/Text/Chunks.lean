import LogRelay.Text.Utf8

/-!
# Chunks

Text that may have been cut off is read chunk by chunk: characters in a row, and the invalid piece behind them. Whether
that piece shows depends on its place. The same bytes stand for a character that was cut off if the input ends with them
(`isCutShort`), and for damage if it goes on.
-/

namespace LogRelay.Utf8

/-- Characters in a row and the invalid piece that ends them. Behind the last of them there may be none. -/
structure Chunk where
  valid : List Char
  invalid : Bytes
  deriving DecidableEq

/-- Pieces put together to chunks. An invalid piece ends one, and a character joins what follows it. -/
def chunksOf : List Piece → List Chunk
  | [] => []
  | .invalid bad :: ps => ⟨[], bad⟩ :: chunksOf ps
  | .char c :: ps =>
    match chunksOf ps with
    | [] => [⟨[c], []⟩]
    | chunk :: chunks => { chunk with valid := c :: chunk.valid } :: chunks

def chunks (bs : Bytes) : List Chunk := chunksOf (pieces bs)

/-- Whether the first thing wrong with `bs` is that it ends inside a character. -/
def isCutShort (bs : Bytes) : Bool := (settled bs).all (·.char?.isSome) && (read bs).begun.isSome

/-- How a chunk shows in a text: a replacement character stands for its invalid piece, but nothing for a character that is
cut short where the input ends. -/
def Chunk.shown (chunk : Chunk) (last : Bool) : List Char :=
  if chunk.invalid.isEmpty || last && isCutShort chunk.invalid then chunk.valid
  else chunk.valid ++ [replacement]

def shownCut : List Chunk → List Char
  | [] => []
  | chunk :: chunks => chunk.shown chunks.isEmpty ++ shownCut chunks

/-- The text of `bs` that may have been cut off inside a character, read chunk by chunk. It is that of `decodeCut`. -/
def decodeChunks (bs : Bytes) : String := String.ofList (shownCut (chunks bs))

end LogRelay.Utf8
