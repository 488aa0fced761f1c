import LogRelay.Text.Chunks

/-!
# Terminated text

Text behind a pointer ends at its first NUL byte, and a null pointer stands for no text.
-/

namespace LogRelay

/-- The part of `bs` before its first NUL. -/
def Bytes.untilNul (bs : Bytes) : Bytes := bs.takeWhile (· ≠ 0)

/-- A pointer to terminated text: `none` is the null pointer, and what follows the first NUL is not read. -/
abbrev TextPointer := Option Bytes

namespace TextPointer

/-- The bytes that a reader sees. -/
def bytes (p : TextPointer) : Bytes := Bytes.untilNul (p.getD [])

/-- The text that a reader sees, empty for a null pointer. -/
def text (p : TextPointer) : String := Utf8.decode p.bytes

/-- The text that a reader sees where it may have been cut off inside a character. -/
def cutText (p : TextPointer) : String := Utf8.decodeChunks p.bytes

/-- Bytes as terminated text. Those with a NUL among them are refused. -/
def ofBytes? (bs : Bytes) : Option TextPointer := if bs.contains 0 then none else some (some bs)

end TextPointer
end LogRelay
