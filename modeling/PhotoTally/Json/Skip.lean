import PhotoTally.Json.Reader

/-!
# Passing over values

The value of a field that nobody asked for is passed over.  Only its punctuation and the spelling
of its scalars are checked: surrogates need no partner, and a number may have any size.
-/

namespace PhotoTally.Json

/-- Passes over the text behind an opening quote. -/
def skipText : List Char → Except Stop (List Char)
  | [] => stopAt .textEnds []
  | c :: rest =>
    if c = '"' then .ok rest
    else if c = '\\' then
      match rest with
      | [] => stopAt .textEnds []
      | e :: rest' =>
        if (shortEscape? e).isSome then skipText rest'
        else if e = 'u' then
          match rest' with
          | h₁ :: h₂ :: h₃ :: h₄ :: after =>
            if (hexValue4? h₁ h₂ h₃ h₄).isSome then skipText after
            else stopAfter 4 .badEscape (h₁ :: h₂ :: h₃ :: h₄ :: after)
          | other => stopInHex other
        else stopAfter 1 .badEscape (e :: rest')
    else if c.toNat < 0x20 then stopAt .controlCharacter (c :: rest)
    else skipText rest

/-- Passes over the key and the colon of an entry. -/
def skipKey (s : List Char) : Except Stop (List Char) :=
  match skipBlank s with
  | [] => stopAt .objectEnds []
  | '"' :: rest => skipText rest >>= readColon
  | rest => stopAfter 1 .keyNotText rest

/-- Passes over closing brackets and one comma, inside the open containers, `true` for a map.
`done` says that the innermost container holds a finished value.  The result is what is open now,
and the text where the next value or key begins. -/
def skipEnds : List Bool → Bool → List Char → Except Stop (List Bool × List Char)
  | [], _, s => .ok ([], s)
  | inMap :: outer, done, s =>
    match skipBlank s with
    | [] => stopAt (if inMap then .objectEnds else .listEnds) []
    | c :: rest =>
      if c = ',' ∧ done then .ok (inMap :: outer, rest)
      else if c = (if inMap then '}' else ']') then skipEnds outer true rest
      else if done then
        stopAfter 1 (if inMap then .noObjectComma else .noListComma) (c :: rest)
      else .ok (inMap :: outer, c :: rest)

/-- Passes over values until all containers are closed. -/
def skipWithin : Nat → List Bool → List Char → Except Stop (List Char)
  | 0, _, _ => stopAt .valueEnds []
  | fuel + 1, outer, s => do
    let s := skipBlank s
    let (opened, s) ←
      match s with
      | [] => stopAt .valueEnds []
      | '[' :: rest => .ok (some false, rest)
      | '{' :: rest => .ok (some true, rest)
      | 'n' :: rest => (readWord "ull".toList rest).map fun s => (none, s)
      | 't' :: rest => (readWord "rue".toList rest).map fun s => (none, s)
      | 'f' :: rest => (readWord "alse".toList rest).map fun s => (none, s)
      | '"' :: rest => (skipText rest).map fun s => (none, s)
      | c :: rest =>
        if c = '-' ∨ c.isDigit then (skipNumber (c :: rest)).map fun p => (none, p.2)
        else stopAfter 1 .noValue (c :: rest)
    let (containers, s) ←
      match opened with
      | some inMap => skipEnds (inMap :: outer) false s
      | none => skipEnds outer true s
    match containers with
    | [] => return s
    | true :: _ => skipKey s >>= skipWithin fuel containers
    | false :: _ => skipWithin fuel containers s

/-- Passes over one value. -/
def skipValue (s : List Char) : Except Stop (List Char) := skipWithin (s.length + 1) [] s

end PhotoTally.Json
