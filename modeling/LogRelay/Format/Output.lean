import LogRelay.Text.Utf8

/-!
# Output

What a format renders to is kept as chunks, so that a long run of one byte costs nothing until it is read.
`Output.firstBytes` reads no more than it returns.
-/

namespace LogRelay.Format

/-- A piece of output: bytes as they are, or one byte many times. -/
inductive Chunk where
  | literal (bs : Bytes)
  | fill (count : Nat) (b : UInt8)
  deriving DecidableEq

namespace Chunk

def toBytes : Chunk → Bytes
  | literal bs => bs
  | fill count b => List.replicate count b

def size : Chunk → Nat
  | literal bs => bs.length
  | fill count _ => count

/-- The first `n` bytes. -/
def firstBytes (n : Nat) : Chunk → Bytes
  | literal bs => bs.take n
  | fill count b => List.replicate (min n count) b

theorem length_toBytes (c : Chunk) : c.toBytes.length = c.size := by
  cases c <;> simp [toBytes, size]

theorem firstBytes_eq (n : Nat) (c : Chunk) : c.firstBytes n = c.toBytes.take n := by
  cases c <;> simp [toBytes, firstBytes, List.take_replicate]

end Chunk

abbrev Output := List Chunk

namespace Output

def toBytes (o : Output) : Bytes := o.flatMap Chunk.toBytes

def size : Output → Nat
  | [] => 0
  | c :: rest => c.size + size rest

def firstBytes : Nat → Output → Bytes
  | 0, _ => []
  | _, [] => []
  | n + 1, c :: rest => c.firstBytes (n + 1) ++ firstBytes (n + 1 - c.size) rest

@[simp] theorem toBytes_nil : toBytes [] = [] := rfl

@[simp] theorem toBytes_cons (c : Chunk) (o : Output) : toBytes (c :: o) = c.toBytes ++ toBytes o := rfl

theorem toBytes_append (o o' : Output) : toBytes (o ++ o') = toBytes o ++ toBytes o' := by
  simp [toBytes]

theorem length_toBytes (o : Output) : o.toBytes.length = o.size := by
  induction o with
  | nil => rfl
  | cons c o ih => simpa [Chunk.length_toBytes, size] using ih

theorem firstBytes_eq (n : Nat) (o : Output) : firstBytes n o = o.toBytes.take n := by
  induction o generalizing n with
  | nil => cases n <;> rfl
  | cons c o ih =>
    cases n with
    | zero => rfl
    | succ n =>
      rw [firstBytes, ih, Chunk.firstBytes_eq, toBytes_cons, List.take_append, Chunk.length_toBytes]

end Output
end LogRelay.Format
