import PhotoTally.Json.Number

/-!
# Reading JSON by expectation

A reader says what it wants at each place: a text, a count, a sequence, a map, or a record with
named fields.  The first deviation ends the reading, whether the text breaks the format or holds
another kind of value than the wanted one.  Blanks are the space, the tab, the line feed and the
carriage return.
-/

namespace PhotoTally.Json

/-- The blanks between tokens. -/
def isBlank (c : Char) : Bool := c = ' ' || c = '\t' || c = '\n' || c = '\r'

/-- The text behind the blanks at its start. -/
def skipBlank (s : List Char) : List Char := s.dropWhile isBlank

/-- Passes over the letters of a word. -/
def readWord : List Char → List Char → Except Stop (List Char)
  | [], s => .ok s
  | _ :: _, [] => stopAt .valueEnds []
  | w :: word, c :: rest => if c = w then readWord word rest else stopAfter 1 .noWord (c :: rest)

/-! ## Values of another kind -/

/-- Refuses the value at the start of the text, which is not a `wanted` one.  A broken scalar is
refused for being broken. -/
def refuse {α : Type} (wanted : String) (s : List Char) : Except Stop α :=
  let wrong (found : Found) (rest : List Char) : Except Stop α :=
    stopAt (.wrongType found wanted) rest
  match s with
  | 'n' :: rest => readWord "ull".toList rest >>= wrong .null
  | 't' :: rest => readWord "rue".toList rest >>= wrong (.boolean true)
  | 'f' :: rest => readWord "alse".toList rest >>= wrong (.boolean false)
  | '"' :: rest => readText rest >>= fun (t, rest) => wrong (.text t) rest
  | '[' :: rest => wrong .sequence ('[' :: rest)
  | '{' :: rest => wrong .map ('{' :: rest)
  | c :: rest =>
    if c = '-' ∨ c.isDigit then
      readNumber (c :: rest) >>= fun (n, rest) => wrong (.number n) rest
    else stopAfter 1 .noValue (c :: rest)
  | [] => stopAt .valueEnds []

/-! ## Scalars -/

/-- A text. -/
def readString (s : List Char) : Reading String :=
  match skipBlank s with
  | '"' :: rest => readText rest
  | s => refuse "a string" s

/-- A count: an integer from zero up that fits a word. -/
def readCount (s : List Char) : Reading Nat :=
  match skipBlank s with
  | [] => stopAt .valueEnds []
  | c :: rest =>
    if c = '-' ∨ c.isDigit then
      match readNumber (c :: rest) with
      | .ok (.natural n, rest) => .ok (n, rest)
      | .ok (.negative n, rest) => stopAt (.belowZero n) rest
      | .ok (.fraction below x, rest) =>
        stopAt (.wrongType (.number (.fraction below x)) "usize") rest
      | .error e => .error e
    else refuse "usize" (c :: rest)

/-! ## Sequences -/

/-- Finds the next element of a sequence, `none` if the closing bracket comes first.  `first` says
that no element came before. -/
def nextElement (first : Bool) (s : List Char) : Except Stop (Option (List Char)) :=
  match skipBlank s with
  | [] => stopAt .listEnds []
  | ']' :: _ => .ok none
  | c :: rest =>
    if first then .ok (some (c :: rest))
    else if c = ',' then
      match skipBlank rest with
      | [] => stopAt .valueEnds []
      | ']' :: rest => stopAfter 1 .trailingComma (']' :: rest)
      | rest => .ok (some rest)
    else stopAfter 1 .noListComma (c :: rest)

/-- The text behind a closing bracket, which is to come now. -/
def closeSequence (s : List Char) : Except Stop (List Char) :=
  match skipBlank s with
  | [] => stopAt .listEnds []
  | ']' :: rest => .ok rest
  | ',' :: rest =>
    match skipBlank rest with
    | ']' :: rest => stopAfter 1 .trailingComma (']' :: rest)
    | rest => stopAfter 1 .trailingText rest
  | rest => stopAfter 1 .trailingText rest

/-- The elements up to the closing bracket.  Each of them takes up some of the text, so `fuel` need
not exceed its length. -/
def readElements {α : Type} (element : List Char → Reading α) :
    Nat → Bool → List Char → Reading (List α)
  | 0, _, _ => stopAt .listEnds []
  | fuel + 1, first, s =>
    match nextElement first s with
    | .error e => .error e
    | .ok none => (closeSequence s).map fun rest => ([], rest)
    | .ok (some s) =>
      match element s with
      | .error e => .error e
      | .ok (x, rest) =>
        (readElements element fuel false rest).map fun (xs, rest) => (x :: xs, rest)

/-- A sequence of elements of one kind. -/
def readSequence {α : Type} (element : List Char → Reading α) (s : List Char) :
    Reading (List α) :=
  match skipBlank s with
  | '[' :: rest => readElements element (rest.length + 1) true rest
  | s => refuse "a sequence" s

/-! ## Maps -/

/-- Finds the next key of a map, `none` if the closing brace comes first.  The result is the text
behind the key's opening quote. -/
def nextKey (first : Bool) (s : List Char) : Except Stop (Option (List Char)) :=
  match skipBlank s with
  | [] => stopAt .objectEnds []
  | '}' :: _ => .ok none
  | c :: rest =>
    if first then
      if c = '"' then .ok (some rest) else stopAfter 1 .keyNotText (c :: rest)
    else if c = ',' then
      match skipBlank rest with
      | [] => stopAt .valueEnds []
      | '"' :: rest => .ok (some rest)
      | '}' :: rest => stopAfter 1 .trailingComma ('}' :: rest)
      | rest => stopAfter 1 .keyNotText rest
    else stopAfter 1 .noObjectComma (c :: rest)

/-- The text behind the colon that is to come now. -/
def readColon (s : List Char) : Except Stop (List Char) :=
  match skipBlank s with
  | [] => stopAt .objectEnds []
  | ':' :: rest => .ok rest
  | rest => stopAfter 1 .noColon rest

/-- The entries up to the closing brace.  `entry` reads the rest of an entry behind its key, given
what the entries before have made of the initial state. -/
def readEntries {σ : Type} (entry : σ → String → List Char → Reading σ) :
    Nat → Bool → σ → List Char → Reading σ
  | 0, _, _, _ => stopAt .objectEnds []
  | fuel + 1, first, st, s =>
    match nextKey first s with
    | .error e => .error e
    | .ok none => .ok (st, (skipBlank s).tail)
    | .ok (some s) =>
      match readText s with
      | .error e => .error e
      | .ok (key, rest) =>
        match entry st key rest with
        | .error e => .error e
        | .ok (st, rest) => readEntries entry fuel false st rest

/-- A map with values of one kind, as the list of its entries in the order of the text. -/
def readMap {α : Type} (value : List Char → Reading α) (s : List Char) :
    Reading (List (String × α)) :=
  match skipBlank s with
  | '{' :: rest =>
    readEntries
      (fun entries key s =>
        match readColon s with
        | .error e => .error e
        | .ok s => (value s).map fun (v, rest) => (entries ++ [(key, v)], rest))
      (rest.length + 1) true [] rest
  | s => refuse "a map" s

/-! ## Whole texts -/

/-- The value that the whole text spells; only blanks may follow it. -/
def readAll {α : Type} (value : List Char → Reading α) (text : String) : Except Fault α :=
  let result : Except Stop α :=
    match value text.toList with
    | .error e => .error e
    | .ok (v, rest) =>
      match skipBlank rest with
      | [] => .ok v
      | rest => stopAfter 1 .trailingText rest
  result.mapError (Stop.locate text)

end PhotoTally.Json
