import LogRelay.Numeral
import LogRelay.Text.Unprintable
import LogRelay.Text.Utf8

/-!
# Quoted text

A text between double quotes, on one line whatever it holds: the double quote and the backslash stand behind a
backslash, a few controls have a letter, and any other character that does not print is given by its code point.
Bytes that are no text are given by number too.
-/

namespace LogRelay.Text

/-- A code point in hexadecimal between braces. -/
def escapeCode (c : Char) : List Char :=
  '\\' :: 'u' :: '\x7b' :: (Nat.toDigits 16 c.toNat ++ ['\x7d'])

/-- How a character shows inside quotes. -/
def escapeChar (c : Char) : List Char :=
  if c = '"' then ['\\', '"']
  else if c = '\\' then ['\\', '\\']
  else if c = '\t' then ['\\', 't']
  else if c = '\n' then ['\\', 'n']
  else if c = '\r' then ['\\', 'r']
  else if c = '\x00' then ['\\', '0']
  else if isUnprintable c then escapeCode c
  else [c]

def quoted (s : String) : String := String.ofList ('"' :: s.toList.flatMap escapeChar ++ ['"'])

/-- How a piece of bytes shows inside quotes: what is no character is given byte by byte. -/
def escapePiece : Utf8.Piece → List Char
  | .char c => escapeChar c
  | .invalid bs => bs.flatMap fun b =>
      '\\' :: 'x' :: (padDigits 2 (Radix.hexadecimal.digits b.toNat)).map fun d => Char.ofNat (digitByte true d).toNat

def quotedBytes (bs : Bytes) : String := String.ofList ('"' :: (Utf8.pieces bs).flatMap escapePiece ++ ['"'])

end LogRelay.Text
