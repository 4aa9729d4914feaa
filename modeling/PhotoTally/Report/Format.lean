import PhotoTally.Json.Skip
import PhotoTally.Json.Writer
import PhotoTally.Report.Basic

/-!
# The report as text

A report is written as a JSON sequence of years, or as a script of one declaration that binds that
sequence to a variable.  The reader takes a record also as the sequence of its fields, and passes
over fields that it does not know.
-/

namespace PhotoTally

/-- How a report is written. -/
inductive OutputFormat where
  | script (varName : String)
  | json
  deriving DecidableEq, Inhabited

namespace Report

/-! ## Writing -/

def writeAlbum (c : AlbumCounts) : List Char :=
  Json.writeMap [
    ("album", Json.quote c.album),
    ("total", Json.writeCount c.total),
    ("edited", Json.writeCount c.edited),
    ("deleted", Json.writeCount c.deleted)]

def writeYear (y : YearReport) : List Char :=
  Json.writeMap [
    ("year", Json.quote y.year),
    ("albums", Json.writeSequence (y.albums.map writeAlbum))]

/-- The compact JSON text of a report. -/
def encode (r : Report) : String := String.ofList (Json.writeSequence (r.years.map writeYear))

/-- A report as it is written to its file. -/
def render (r : Report) : OutputFormat → String
  | .script varName => "var " ++ varName ++ "=" ++ r.encode ++ ";"
  | .json => r.encode

/-! ## Reading -/

open Json

/-- Refuses a field whose name came before. -/
def refuseRepeated {α : Type} (name : String) (s : List Char) : Except Stop α :=
  match skipBlank s with
  | '}' :: rest => stopAt (.duplicateField name) rest
  | rest => stopAt (.duplicateField name) rest

/-- The value of a named field that may come once. -/
def readField {α : Type} (name : String) (seen : Option α) (value : List Char → Reading α)
    (s : List Char) : Reading α :=
  if seen.isSome then refuseRepeated name s
  else match readColon s with
    | .error e => .error e
    | .ok s => value s

/-- Passes over the value of a field without meaning. -/
def skipField (s : List Char) : Except Stop (List Char) := readColon s >>= skipValue

/-- The value of a named field that must have come. -/
def require {α : Type} (name : String) (rest : List Char) : Option α → Except Stop α
  | some v => .ok v
  | none => stopAt (.missingField name) rest

/-- The field of a record that is spelt as a sequence, behind `index` others. -/
def readPart {α : Type} (index : Nat) (wanted : String) (value : List Char → Reading α)
    (s : List Char) : Reading α :=
  match nextElement (index == 0) s with
  | .error e => .error e
  | .ok none => stopAt (.wrongLength index wanted) (skipBlank s).tail
  | .ok (some s) => value s

/-- The fields of an album that have been read. -/
structure AlbumFields where
  album : Option String := none
  total : Option Nat := none
  edited : Option Nat := none
  deleted : Option Nat := none

def AlbumFields.readEntry (f : AlbumFields) (key : String) (s : List Char) :
    Reading AlbumFields :=
  if key = "album" then
    (readField key f.album readString s).map fun (v, s) => ({ f with album := v }, s)
  else if key = "total" then
    (readField key f.total readCount s).map fun (v, s) => ({ f with total := v }, s)
  else if key = "edited" then
    (readField key f.edited readCount s).map fun (v, s) => ({ f with edited := v }, s)
  else if key = "deleted" then
    (readField key f.deleted readCount s).map fun (v, s) => ({ f with deleted := v }, s)
  else (skipField s).map fun s => (f, s)

def AlbumFields.finish (f : AlbumFields) (rest : List Char) : Except Stop AlbumCounts := do
  let album ← require "album" rest f.album
  let total ← require "total" rest f.total
  let edited ← require "edited" rest f.edited
  let deleted ← require "deleted" rest f.deleted
  return { album, total, edited, deleted }

/-- The counts of an album. -/
def readAlbum (s : List Char) : Reading AlbumCounts :=
  match skipBlank s with
  | '{' :: rest =>
    match readEntries AlbumFields.readEntry (rest.length + 1) true {} rest with
    | .error e => .error e
    | .ok (f, rest) => (f.finish rest).map fun c => (c, rest)
  | '[' :: rest =>
    let wanted := "struct AlbumStats with 4 elements"
    match readPart 0 wanted readString rest with
    | .error e => .error e
    | .ok (album, rest) =>
    match readPart 1 wanted readCount rest with
    | .error e => .error e
    | .ok (total, rest) =>
    match readPart 2 wanted readCount rest with
    | .error e => .error e
    | .ok (edited, rest) =>
    match readPart 3 wanted readCount rest with
    | .error e => .error e
    | .ok (deleted, rest) =>
      (closeSequence rest).map fun rest => ({ album, total, edited, deleted }, rest)
  | s => refuse "struct AlbumStats" s

/-- The fields of a year that have been read. -/
structure YearFields where
  year : Option String := none
  albums : Option (List AlbumCounts) := none

def YearFields.readEntry (f : YearFields) (key : String) (s : List Char) : Reading YearFields :=
  if key = "year" then
    (readField key f.year readString s).map fun (v, s) => ({ f with year := v }, s)
  else if key = "albums" then
    (readField key f.albums (readSequence readAlbum) s).map fun (v, s) =>
      ({ f with albums := v }, s)
  else (skipField s).map fun s => (f, s)

def YearFields.finish (f : YearFields) (rest : List Char) : Except Stop YearReport := do
  let year ← require "year" rest f.year
  let albums ← require "albums" rest f.albums
  return { year, albums }

/-- The counts of a year. -/
def readYear (s : List Char) : Reading YearReport :=
  match skipBlank s with
  | '{' :: rest =>
    match readEntries YearFields.readEntry (rest.length + 1) true {} rest with
    | .error e => .error e
    | .ok (f, rest) => (f.finish rest).map fun y => (y, rest)
  | '[' :: rest =>
    let wanted := "struct YearReport with 2 elements"
    match readPart 0 wanted readString rest with
    | .error e => .error e
    | .ok (year, rest) =>
    match readPart 1 wanted (readSequence readAlbum) rest with
    | .error e => .error e
    | .ok (albums, rest) => (closeSequence rest).map fun rest => ({ year, albums }, rest)
  | s => refuse "struct YearReport" s

/-- The report that a JSON text spells. -/
def decode (text : String) : Except Fault Report :=
  (readAll (readSequence readYear) text).map Report.mk

end Report

end PhotoTally
