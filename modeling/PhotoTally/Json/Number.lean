import PhotoTally.Json.Text

/-!
# Numbers of JSON

`readNumber` reads a number.  An integer that fits 64 bits, with or without sign, keeps its value;
every other number becomes a floating-point one, also `-0`.  Digits are gathered into a significand
as long as it fits 64 bits; digits beyond count by their place only.  `skipNumber` passes over a
number and checks its spelling alone.
-/

namespace PhotoTally.Json

/-- The value of a decimal digit. -/
def digitValue (c : Char) : Nat := c.toNat - 48

/-- Whether the text begins with a digit. -/
def startsWithDigit : List Char → Bool
  | c :: _ => c.isDigit
  | [] => false

/-- The text behind the digits at its start. -/
def dropDigits (s : List Char) : List Char := s.dropWhile Char.isDigit

/-- The number of digits at the start of the text. -/
def countDigits (s : List Char) : Nat := (s.takeWhile Char.isDigit).length

/-- Gathers digits behind `n`, as long as the result stays below `bound`. -/
def gather (bound n : Nat) : List Char → Nat × List Char
  | [] => (n, [])
  | c :: rest =>
    if c.isDigit ∧ n * 10 + digitValue c < bound then gather bound (n * 10 + digitValue c) rest
    else (n, c :: rest)

/-- The bound of a word. -/
def wordBound : Nat := 0x10000000000000000

/-- The number `significand * 10 ^ exponent`, if it is not too large. -/
def fraction (negative : Bool) (significand : Nat) (exponent : Int) (rest : List Char) :
    Reading Number :=
  match Decimal.Binary64.ofDecimal significand exponent with
  | some x => .ok (.fraction negative x, rest)
  | none => stopAt .numberTooLarge rest

/-- An exponent behind its `e`, added to `start`. -/
def readExponent (negative : Bool) (significand : Nat) (start : Int) (s : List Char) :
    Reading Number :=
  let (down, s) : Bool × List Char :=
    match s with
    | '+' :: rest => (false, rest)
    | '-' :: rest => (true, rest)
    | s => (false, s)
  match s with
  | [] => stopAt .valueEnds []
  | c :: rest =>
    if c.isDigit then
      let (e, rest) := gather 0x80000000 (digitValue c) rest
      if startsWithDigit rest then
        if significand ≠ 0 ∧ ¬ down then stopAfter 1 .numberTooLarge rest
        else .ok (.fraction negative .zero, dropDigits rest)
      else fraction negative significand (if down then start - e else start + e) rest
    else stopAfter 1 .badNumber (c :: rest)

/-- What follows the digits of a fraction: an exponent or nothing. -/
def readFractionEnd (negative : Bool) (significand : Nat) (exponent : Int) (s : List Char) :
    Reading Number :=
  match s with
  | 'e' :: rest => readExponent negative significand exponent rest
  | 'E' :: rest => readExponent negative significand exponent rest
  | s => fraction negative significand exponent s

/-- The digits behind a point. -/
def readDecimals (negative : Bool) (significand : Nat) (exponent : Int) (s : List Char) :
    Reading Number :=
  let (n, rest) := gather wordBound significand s
  let taken := s.length - rest.length
  if startsWithDigit rest then
    readFractionEnd negative n (exponent - taken) (dropDigits rest)
  else if taken = 0 then
    match rest with
    | [] => stopAt .valueEnds []
    | rest => stopAfter 1 .badNumber rest
  else readFractionEnd negative n (exponent - taken) rest

/-- What follows an integer that is too long for a word. -/
def readLongEnd (negative : Bool) (significand : Nat) (exponent : Int) (s : List Char) :
    Reading Number :=
  match s with
  | '.' :: rest => readDecimals negative significand exponent rest
  | s => readFractionEnd negative significand exponent s

/-- What follows an integer that fits a word. -/
def readIntegerEnd (negative : Bool) (n : Nat) (s : List Char) : Reading Number :=
  match s with
  | '.' :: rest => readDecimals negative n 0 rest
  | 'e' :: rest => readExponent negative n 0 rest
  | 'E' :: rest => readExponent negative n 0 rest
  | s =>
    if ¬ negative then .ok (.natural n, s)
    else if n = 0 ∨ 0x8000000000000000 < n then fraction true n 0 s
    else .ok (.negative n, s)

/-- A number behind its sign. -/
def readDigits (negative : Bool) (s : List Char) : Reading Number :=
  match s with
  | [] => stopAt .valueEnds []
  | c :: rest =>
    if c = '0' then
      if startsWithDigit rest then stopAfter 1 .badNumber rest
      else readIntegerEnd negative 0 rest
    else if c.isDigit then
      let (n, rest) := gather wordBound (digitValue c) rest
      if startsWithDigit rest then
        readLongEnd negative n (countDigits rest) (dropDigits rest)
      else readIntegerEnd negative n rest
    else stopAfter 1 .badNumber (c :: rest)

/-- A number, from its sign or first digit on. -/
def readNumber (s : List Char) : Reading Number :=
  match s with
  | '-' :: rest => readDigits true rest
  | s => readDigits false s

/-! ## Passing over a number -/

/-- Passes over an exponent behind its `e`. -/
def skipExponent (s : List Char) : Reading Unit :=
  let s :=
    match s with
    | '+' :: rest => rest
    | '-' :: rest => rest
    | s => s
  if startsWithDigit s then .ok ((), dropDigits s) else stopAfter 1 .badNumber s

/-- Passes over what follows the digits of a fraction. -/
def skipFractionEnd (s : List Char) : Reading Unit :=
  match s with
  | 'e' :: rest => skipExponent rest
  | 'E' :: rest => skipExponent rest
  | s => .ok ((), s)

/-- Passes over what follows an integer. -/
def skipIntegerEnd (s : List Char) : Reading Unit :=
  match s with
  | '.' :: rest =>
    if startsWithDigit rest then skipFractionEnd (dropDigits rest)
    else stopAfter 1 .badNumber rest
  | s => skipFractionEnd s

/-- Passes over a number, from its sign or first digit on. -/
def skipNumber (s : List Char) : Reading Unit :=
  let s :=
    match s with
    | '-' :: rest => rest
    | s => s
  match s with
  | '0' :: rest =>
    if startsWithDigit rest then stopAfter 1 .badNumber rest else skipIntegerEnd rest
  | s => if startsWithDigit s then skipIntegerEnd (dropDigits s) else stopAfter 1 .badNumber s

end PhotoTally.Json
