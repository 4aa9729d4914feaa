import PhotoTally.Json.Reader
import PhotoTally.Json.Writer
import PhotoTally.Ledger.Basic

/-!
# The ledger as text

A ledger is written as a map from years to maps from albums to sequences of names, keys ascending.
A text may repeat a key; the later entry then stands for the whole key.
-/

namespace PhotoTally.Ledger

/-- The entries of a ledger text, in the order of the text. -/
abbrev Document := List (String × List (String × List String))

/-- The ledger that a document stands for. -/
def ofDocument (d : Document) : Ledger := ⟨.ofList (d.map fun e => (e.1, .ofList e.2))⟩

/-- The entries of a ledger, keys ascending. -/
def toDocument (l : Ledger) : Document := l.years.entries.map fun e => (e.1, e.2.entries)

/-- The compact text of a document. -/
def Document.write (d : Document) : List Char :=
  Json.writeMap <| d.map fun (year, albums) =>
    (year, Json.writeMap <| albums.map fun (album, names) =>
      (album, Json.writeSequence (names.map Json.quote)))

/-- Reads a map of maps of sequences of texts. -/
def Document.read (s : List Char) : Json.Reading Document :=
  Json.readMap (Json.readMap (Json.readSequence Json.readString)) s

/-- The compact text of a ledger. -/
def encode (l : Ledger) : String := String.ofList l.toDocument.write

/-- The ledger that a text spells. -/
def decode (text : String) : Except Json.Fault Ledger :=
  (Json.readAll Document.read text).map ofDocument

end PhotoTally.Ledger
