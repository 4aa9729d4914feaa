import PhotoTally.Json.Fault

/-!
# Strings of JSON

`quote` writes a text between double quotes, with an escape for the quote, the backslash and the
controls.  `readText` reads the text behind an opening quote; it takes every escape of the format
and refuses a control character that stands unescaped and a surrogate without its partner.
-/

namespace PhotoTally.Json

/-! ## Writing -/

/-- A hexadecimal digit, small letters for those above nine. -/
def hexDigit (n : Nat) : Char := Nat.digitChar (n % 16)

/-- One character inside quotes. -/
def escape (c : Char) : List Char :=
  if c = '"' then ['\\', '"']
  else if c = '\\' then ['\\', '\\']
  else if c = '\x08' then ['\\', 'b']
  else if c = '\x0c' then ['\\', 'f']
  else if c = '\n' then ['\\', 'n']
  else if c = '\r' then ['\\', 'r']
  else if c = '\t' then ['\\', 't']
  else if c.toNat < 0x20 then
    ['\\', 'u', '0', '0', hexDigit (c.toNat / 16), hexDigit c.toNat]
  else [c]

/-- A text as a JSON string. -/
def quote (s : String) : List Char := '"' :: s.toList.flatMap escape ++ ['"']

/-! ## Reading -/

/-- The result of reading from a text, and the rest of it. -/
abbrev Reading (α : Type) := Except Stop (α × List Char)

/-- Stops right before `rest`. -/
def stopAt {α : Type} (p : Problem) (rest : List Char) : Except Stop α :=
  .error ⟨p, size rest⟩

/-- Stops behind the first `n` bytes of `rest`. -/
def stopAfter {α : Type} (n : Nat) (p : Problem) (rest : List Char) : Except Stop α :=
  .error ⟨p, size rest - n⟩

/-- The character of an escape of one letter. -/
def shortEscape? (c : Char) : Option Char :=
  if c = '"' then some '"'
  else if c = '\\' then some '\\'
  else if c = '/' then some '/'
  else if c = 'b' then some '\x08'
  else if c = 'f' then some '\x0c'
  else if c = 'n' then some '\n'
  else if c = 'r' then some '\r'
  else if c = 't' then some '\t'
  else none

/-- The value of a hexadecimal digit. -/
def hexValue? (c : Char) : Option Nat :=
  if '0' ≤ c ∧ c ≤ '9' then some (c.toNat - 48)
  else if 'a' ≤ c ∧ c ≤ 'f' then some (c.toNat - 87)
  else if 'A' ≤ c ∧ c ≤ 'F' then some (c.toNat - 55)
  else none

/-- The value of four hexadecimal digits. -/
def hexValue4? (a b c d : Char) : Option Nat :=
  match hexValue? a, hexValue? b, hexValue? c, hexValue? d with
  | some a, some b, some c, some d => some (((a * 16 + b) * 16 + c) * 16 + d)
  | _, _, _, _ => none

/-- The first half of a code point above U+FFFF. -/
def isHighSurrogate (n : Nat) : Bool := 0xD800 ≤ n && n ≤ 0xDBFF

/-- The second half of a code point above U+FFFF. -/
def isLowSurrogate (n : Nat) : Bool := 0xDC00 ≤ n && n ≤ 0xDFFF

/-- The character of two halves. -/
def ofSurrogates (high low : Nat) : Char :=
  Char.ofNat ((high - 0xD800) * 0x400 + (low - 0xDC00) + 0x10000)

/-- Why `rest` does not begin with four hexadecimal digits. -/
def stopInHex {α : Type} (rest : List Char) : Except Stop α :=
  if size rest < 4 then .error ⟨.textEnds, 0⟩ else stopAfter 4 .badEscape rest

/-- Why `rest` does not begin with the escape of a second half. -/
def stopInPair {α : Type} : List Char → Except Stop α
  | [] => stopAt .textEnds []
  | '\\' :: [] => stopAt .textEnds []
  | '\\' :: 'u' :: rest => stopInHex rest
  | '\\' :: rest => stopAfter 1 .surrogateEnds rest
  | rest => stopAfter 1 .surrogateEnds rest

/-- The characters up to the closing quote, and what follows it. -/
def readChars : List Char → Reading (List Char)
  | [] => stopAt .textEnds []
  | c :: rest =>
    if c = '"' then .ok ([], rest)
    else if c = '\\' then
      match rest with
      | [] => stopAt .textEnds []
      | e :: rest' =>
        match shortEscape? e with
        | some x => (readChars rest').map fun (xs, after) => (x :: xs, after)
        | none =>
          if e = 'u' then
            match rest' with
            | h₁ :: h₂ :: h₃ :: h₄ :: after₁ =>
              match hexValue4? h₁ h₂ h₃ h₄ with
              | none => stopAfter 4 .badEscape (h₁ :: h₂ :: h₃ :: h₄ :: after₁)
              | some n =>
                if isLowSurrogate n then stopAt .loneSurrogate after₁
                else if isHighSurrogate n then
                  match after₁ with
                  | '\\' :: 'u' :: l₁ :: l₂ :: l₃ :: l₄ :: after₂ =>
                    match hexValue4? l₁ l₂ l₃ l₄ with
                    | none => stopAfter 4 .badEscape (l₁ :: l₂ :: l₃ :: l₄ :: after₂)
                    | some m =>
                      if isLowSurrogate m then
                        (readChars after₂).map fun (xs, after) => (ofSurrogates n m :: xs, after)
                      else stopAt .loneSurrogate after₂
                  | other => stopInPair other
                else (readChars after₁).map fun (xs, after) => (Char.ofNat n :: xs, after)
            | other => stopInHex other
          else stopAfter 1 .badEscape (e :: rest')
    else if c.toNat < 0x20 then stopAfter 1 .controlCharacter (c :: rest)
    else (readChars rest).map fun (xs, after) => (c :: xs, after)

/-- The text behind an opening quote. -/
def readText (s : List Char) : Reading String :=
  (readChars s).map fun (xs, rest) => (String.ofList xs, rest)

end PhotoTally.Json
