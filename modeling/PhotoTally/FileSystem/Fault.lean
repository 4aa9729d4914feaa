import PhotoTally.Path

/-!
# What can go wrong with a path

`OsError` holds the causes that the system itself reports, with their numbers; `IoFault` adds those
that show before or after the system is asked.  The named causes are those that a path and the files
can show; any other is told by its number and text.
-/

namespace PhotoTally

/-- A cause that the system reports. -/
inductive OsError where
  | notFound
  | denied
  | busy
  | alreadyExists
  | notFolder
  | isFolder
  | invalid
  | nameTooLong
  | notEmpty
  | tooManyLinks
  | other (number : Nat) (text : String)
  deriving DecidableEq

namespace OsError

def number : OsError → Nat
  | notFound => 2
  | denied => 13
  | busy => 16
  | alreadyExists => 17
  | notFolder => 20
  | isFolder => 21
  | invalid => 22
  | nameTooLong => 36
  | notEmpty => 39
  | tooManyLinks => 40
  | other number _ => number

def text : OsError → String
  | notFound => "No such file or directory"
  | denied => "Permission denied"
  | busy => "Device or resource busy"
  | alreadyExists => "File exists"
  | notFolder => "Not a directory"
  | isFolder => "Is a directory"
  | invalid => "Invalid argument"
  | nameTooLong => "File name too long"
  | notEmpty => "Directory not empty"
  | tooManyLinks => "Too many levels of symbolic links"
  | other _ text => text

def message (e : OsError) : String := e.text ++ " (os error " ++ toString e.number ++ ")"

end OsError

/-- Why an operation on a path failed. -/
inductive IoFault where
  | os (e : OsError)
  | zeroByte
  | notText
  | notAlbumFolder
  | noFreeName
  | notWhole
  | atPath (cause : IoFault) (path : Path)
  deriving DecidableEq

namespace IoFault

def message : IoFault → String
  | os e => e.message
  | zeroByte => "file name contained an unexpected NUL byte"
  | notText => "stream did not contain valid UTF-8"
  | notAlbumFolder => "expected an album folder"
  | noFreeName => "too many temporary files exist"
  | notWhole => "failed to write whole buffer"
  | atPath cause path => cause.message ++ " at path " ++ path.quoted

end IoFault

end PhotoTally
