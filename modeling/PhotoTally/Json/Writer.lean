import PhotoTally.Json.Text
import PhotoTally.Text.Split

/-!
# Writing JSON

The compact form: no blank anywhere, elements in the order given.
-/

namespace PhotoTally.Json

/-- A count in decimal digits. -/
def writeCount (n : Nat) : List Char := Nat.toDigits 10 n

/-- A sequence of written values. -/
def writeSequence (elements : List (List Char)) : List Char :=
  '[' :: Text.joinAll ',' elements ++ [']']

/-- A map of written values. -/
def writeMap (entries : List (String × List Char)) : List Char :=
  '{' :: Text.joinAll ',' (entries.map fun e => quote e.1 ++ ':' :: e.2) ++ ['}']

end PhotoTally.Json
