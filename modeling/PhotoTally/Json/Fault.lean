import PhotoTally.Decimal.Shortest
import PhotoTally.Text.Quoted

/-!
# What can be wrong with a JSON text

A reader that gives up says why and how much of the text it had not read.  `Fault.locate` turns
the second into a line and a column, both counted in bytes of the text.
-/

namespace PhotoTally.Json

/-- A number as it is spelt: an integer of 64 bits, with or without sign, or a fraction. -/
inductive Number where
  | natural (n : Nat)
  | negative (n : Nat)
  | fraction (below : Bool) (magnitude : Decimal.Binary64)
  deriving DecidableEq

/-- What a text holds where something else was wanted. -/
inductive Found where
  | null
  | boolean (b : Bool)
  | number (n : Number)
  | text (s : String)
  | sequence
  | map
  deriving DecidableEq

/-- The reason why a text is refused. -/
inductive Problem where
  | valueEnds
  | listEnds
  | objectEnds
  | textEnds
  | noValue
  | noWord
  | noColon
  | noListComma
  | noObjectComma
  | trailingComma
  | trailingText
  | keyNotText
  | badNumber
  | numberTooLarge
  | controlCharacter
  | badEscape
  | loneSurrogate
  | surrogateEnds
  | wrongType (found : Found) (wanted : String)
  | belowZero (n : Nat)
  | missingField (name : String)
  | duplicateField (name : String)
  | wrongLength (length : Nat) (wanted : String)
  deriving DecidableEq

/-- A problem, and the number of bytes behind the place where it shows. -/
structure Stop where
  problem : Problem
  unread : Nat
  deriving DecidableEq

/-- A problem and its place in the text. -/
structure Fault where
  problem : Problem
  line : Nat
  column : Nat
  deriving DecidableEq

/-- The length of a text in bytes. -/
def size (s : List Char) : Nat := (s.map Char.utf8Size).foldr (· + ·) 0

/-- The line that begins after the last line feed of `bs`, and how much of it `bs` holds. -/
def lineAndColumn (bs : List UInt8) : Nat × Nat :=
  (1 + bs.count 10, (bs.reverse.takeWhile (· ≠ 10)).length)

/-- The place of a stop in the text. -/
def Stop.locate (text : String) (stop : Stop) : Fault :=
  let bs := Text.bytes text
  let (line, column) := lineAndColumn (bs.take (bs.length - stop.unread))
  ⟨stop.problem, line, column⟩

/-! ## Wording -/

def Number.describe : Number → String
  | .natural n => "integer `" ++ toString n ++ "`"
  | .negative n => "integer `-" ++ toString n ++ "`"
  | .fraction below x => "floating point `" ++ x.text below ++ "`"

def Found.describe : Found → String
  | .null => "null"
  | .boolean true => "boolean `true`"
  | .boolean false => "boolean `false`"
  | .number n => n.describe
  | .text s => "string " ++ Text.quoted s
  | .sequence => "sequence"
  | .map => "map"

def Problem.message : Problem → String
  | .valueEnds => "EOF while parsing a value"
  | .listEnds => "EOF while parsing a list"
  | .objectEnds => "EOF while parsing an object"
  | .textEnds => "EOF while parsing a string"
  | .noValue => "expected value"
  | .noWord => "expected ident"
  | .noColon => "expected `:`"
  | .noListComma => "expected `,` or `]`"
  | .noObjectComma => "expected `,` or `\x7d`"
  | .trailingComma => "trailing comma"
  | .trailingText => "trailing characters"
  | .keyNotText => "key must be a string"
  | .badNumber => "invalid number"
  | .numberTooLarge => "number out of range"
  | .controlCharacter =>
    "control character (\\u0000-\\u001F) found while parsing a string"
  | .badEscape => "invalid escape"
  | .loneSurrogate => "lone leading surrogate in hex escape"
  | .surrogateEnds => "unexpected end of hex escape"
  | .wrongType found wanted => "invalid type: " ++ found.describe ++ ", expected " ++ wanted
  | .belowZero n => "invalid value: integer `-" ++ toString n ++ "`, expected usize"
  | .missingField name => "missing field `" ++ name ++ "`"
  | .duplicateField name => "duplicate field `" ++ name ++ "`"
  | .wrongLength length wanted =>
    "invalid length " ++ toString length ++ ", expected " ++ wanted

def Fault.message (f : Fault) : String :=
  f.problem.message ++ " at line " ++ toString f.line ++ " column " ++ toString f.column

end PhotoTally.Json
