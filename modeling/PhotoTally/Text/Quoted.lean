import PhotoTally.Text.Invisible
import PhotoTally.Text.Utf8

/-!
# Quoted text

A text between double quotes, as messages show it: what has no shape of its own is shown by its
number, and so is every byte that spells no character.
-/

namespace PhotoTally.Text

/-- One character inside quotes. -/
def quotedChar (c : Char) : List Char :=
  match c with
  | '\x00' => ['\\', '0']
  | '\t' => ['\\', 't']
  | '\n' => ['\\', 'n']
  | '\r' => ['\\', 'r']
  | '"' => ['\\', '"']
  | '\\' => ['\\', '\\']
  | c =>
    if isInvisible c then ['\\', 'u', '{'] ++ Nat.toDigits 16 c.toNat ++ ['}'] else [c]

/-- One byte outside every character, as `\xFF`. -/
def quotedByte (b : UInt8) : List Char :=
  ['\\', 'x'] ++ [b.toNat / 16, b.toNat % 16].map fun d => (Nat.digitChar d).toUpper

/-- One piece of a byte string inside quotes. -/
def Piece.quoted : Piece → List Char
  | .char c => quotedChar c
  | .broken bs => bs.flatMap quotedByte

/-- A text in quotes. -/
def quoted (s : String) : String := String.ofList ('"' :: s.toList.flatMap quotedChar ++ ['"'])

/-- Any bytes in quotes. -/
def quotedBytes (bs : List UInt8) : String :=
  String.ofList ('"' :: (pieces bs).flatMap Piece.quoted ++ ['"'])

end PhotoTally.Text
