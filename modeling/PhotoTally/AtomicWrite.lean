import PhotoTally.Outcome

/-!
# Writing a file in one step

New contents are first written to a temporary file in the target's folder, which then takes the
target's place.  The target is at every moment either what it was or the complete new file.  The new
file is given the permission bits of what the path led to before, `644` if it led to nothing, and
loses of them what a write takes away.

Each step can also fail for reasons that no file shows, such as a full disk.  What goes wrong in this
way is an argument of the write.
-/

namespace PhotoTally

namespace AtomicWrite

/-! ## The temporary file -/

/-- Six decimal digits of `k`. -/
def sixDigits (k : Nat) : List UInt8 :=
  [100000, 10000, 1000, 100, 10, 1].map fun d => (48 + k / d % 10).toUInt8

/-- The `k`-th name for a temporary file: `.tmp` and six more characters. -/
def temporaryName (k : Nat) : List UInt8 := [46, 116, 109, 112] ++ sixDigits k

theorem isEntryName_temporaryName (k : Nat) : IsEntryName (temporaryName k) := by
  have hdigit : ∀ d, 48 ≤ ((48 + k / d % 10).toUInt8).toNat := by
    intro d
    have : k / d % 10 < 10 := Nat.mod_lt _ (by decide)
    simp
    omega
  have hslash : ∀ d, (48 + k / d % 10).toUInt8 ≠ 47 := by
    intro d h
    have := hdigit d
    rw [h] at this
    exact absurd this (by decide)
  have hzero : ∀ d, (48 + k / d % 10).toUInt8 ≠ 0 := by
    intro d h
    have := hdigit d
    rw [h] at this
    exact absurd this (by decide)
  refine ⟨by simp [temporaryName], by simp [temporaryName, sixDigits], ?_, ?_,
    by simp [temporaryName, sixDigits], by simp [temporaryName, sixDigits]⟩
  · simp only [temporaryName, sixDigits, Path.slash, List.mem_append, List.mem_map, not_or]
    refine ⟨by decide, ?_⟩
    rintro ⟨d, -, h⟩
    exact hslash d h
  · simp only [temporaryName, sixDigits, List.mem_append, List.mem_map, not_or]
    refine ⟨by decide, ?_⟩
    rintro ⟨d, -, h⟩
    exact hzero d h

/-- The place of the temporary file with the `k`-th name. -/
def temporaryPlace (folder : Place) (k : Nat) : Place :=
  ⟨temporaryName k, isEntryName_temporaryName k⟩ :: folder

/-- The number of names that are tried. -/
def attempts : Nat := 65536

/-- The first free place for a temporary file, from the `k`-th name on.  The name of the target is
not used. -/
def freePlace? (fs : FileSystem) (folder : Place) (avoid : List UInt8) : Nat → Nat → Option Place
  | 0, _ => none
  | fuel + 1, k =>
    if (fs.find? (temporaryPlace folder k)).isNone && temporaryName k ≠ avoid then
      some (temporaryPlace folder k)
    else freePlace? fs folder avoid fuel (k + 1)

/-- The segments of a path up to the last that is not empty. -/
def significant (p : Path) : List (List UInt8) :=
  (p.segments.reverse.dropWhile (· = [])).reverse

/-- The last segment of a path that is not empty. -/
def lastSegment (p : Path) : List UInt8 := (significant p).getLast?.getD []

/-- A free place for a temporary file in the folder that a path leads to. -/
def placeIn (fs : FileSystem) (folder : Path) (avoid : List UInt8) : Except IoFault Place :=
  match fs.stat folder with
  | .error e => .error e
  | .ok (none, _) => .error (.os .notFound)
  | .ok (some place, n) =>
    if !n.isFolder then .error (.os .notFolder)
    else if !(n.mode.grants .search && n.mode.grants .write) then .error (.os .denied)
    else match freePlace? fs place avoid attempts 0 with
      | some temp => .ok temp
      | none => .error .noFreeName

/-- Where the temporary file for `target` can be made.  Its folder's path is spelt from the root
for this; a fault tells it, unless it cannot be spelt. -/
def temporary (fs : FileSystem) (target : Path) : Except IoFault Place :=
  match fs.absolute target.folder with
  | .error e => .error (.os e)
  | .ok folder =>
    let named := folder.join ⟨temporaryName 0⟩
    let found : Except IoFault Place :=
      if 0 ∈ named.bytes then .error .zeroByte
      else if pathLimit ≤ named.bytes.length then .error (.os .nameTooLong)
      else placeIn fs folder (lastSegment target)
    found.mapError fun e => .atPath e named

/-! ## Taking the target's place -/

/-- The place that a file can take under the path `target`.  A link there is replaced itself; a
folder is not, nor what a path with a slash or a dot at its end names. -/
def targetPlace (fs : FileSystem) (target : Path) : Except OsError Place :=
  if 0 ∈ target.bytes then .error .invalid
  else if target.bytes = [] then .error .notFound
  else if pathLimit ≤ target.bytes.length then .error .nameTooLong
  else
    let known := significant target
    match fs.follow .target target.isAbsolute (known.dropLast.map .ofSegment) with
    | .error e => .error e
    | .ok none => .error .notFound
    | .ok (some parent) =>
      if !fs.isFolder parent then .error .notFolder
      else if !fs.grants parent .search then .error .denied
      else match Step.ofSegment (lastSegment target) with
        | .gap | .stay | .up => .error .busy
        | .refused e => .error e
        | .down n =>
          if known.length < target.segments.length then .error .notFolder
          else if !fs.grants parent .write then .error .denied
          else if fs.isFolder (n :: parent) then .error .isFolder
          else .ok (n :: parent)

/-- The permission bits that the new file is given. -/
def modeFor (fs : FileSystem) (target : Path) : Mode :=
  match fs.stat target with
  | .ok (_, n) => n.mode
  | .error _ => Mode.plainFile

/-- The permission bits of the new file when it holds `contents`. -/
def modeAfter (fs : FileSystem) (target : Path) (contents : ByteArray) : Mode :=
  if contents.isEmpty then modeFor fs target else (modeFor fs target).afterWrite

/-- The new file when it holds `contents`. -/
def complete (fs : FileSystem) (target : Path) (contents : ByteArray) : Node :=
  .file (modeAfter fs target contents) contents

/-! ## Faults -/

/-- What goes wrong at the steps of a write for reasons that no file shows: when the temporary file
is made, when it is given its permission bits, when it is filled, after a number of bytes, and when
it takes the target's place. -/
structure Faults where
  create : Option OsError
  permit : Option OsError
  fill : Option (Nat × IoFault)
  replace : Option OsError
  deriving DecidableEq

def noFaults : Faults := ⟨none, none, none, none⟩

/-- The path of the temporary file at a place, spelt from the root. -/
def temporaryPath (fs : FileSystem) (target : Path) (temp : Place) : Path :=
  let name : Path := ⟨(temp.head?.map (·.bytes)).getD []⟩
  match fs.absolute target.folder with
  | .ok folder => folder.join name
  | .error _ => name

/-- The place at which the temporary file is made. -/
def create (fs : FileSystem) (target : Path) (faults : Faults) : Except IoFault Place :=
  match temporary fs target, faults.create with
  | .ok temp, some e => .error (.atPath (.os e) (temporaryPath fs target temp))
  | found, _ => found

/-- What goes wrong when the temporary file is given its permission bits.  It is given none if the
target leads to nothing. -/
def permitFault? (fs : FileSystem) (target : Path) (faults : Faults) : Option OsError :=
  match fs.stat target with
  | .ok _ => faults.permit
  | .error _ => none

/-- The place that the temporary file takes. -/
def replace (fs : FileSystem) (target : Path) (faults : Faults) : Except OsError Place :=
  match targetPlace fs target, faults.replace with
  | .ok _, some e => .error e
  | found, _ => found

/-! ## The write -/

/-- The file systems that a write to `target` goes through, from the one before to the one after,
and what it ends in.  The temporary file of a write that fails is taken away, whatever it holds. -/
def stages (fs : FileSystem) (target : Path) (contents : ByteArray) (faults : Faults) :
    List FileSystem × Except Failure Unit :=
  match create fs target faults with
  | .error e => ([fs], .error (.io target.folder e))
  | .ok temp =>
    let path := temporaryPath fs target temp
    let created := fs.put temp (.file Mode.plainFile .empty)
    match permitFault? fs target faults with
    | some e => ([fs, created, created.erase temp], .error (.io path (.os e)))
    | none =>
      let permitted := created.put temp (.file (modeFor fs target) .empty)
      match faults.fill with
      | some (size, e) =>
        let begun := permitted.put temp (complete fs target (contents.extract 0 size))
        ([fs, created, permitted, begun, begun.erase temp], .error (.io path (.atPath e path)))
      | none =>
        let filled := permitted.put temp (complete fs target contents)
        let gone := filled.erase temp
        match replace fs target faults with
        | .error e => ([fs, created, permitted, filled, gone], .error (.replace target (.os e)))
        | .ok place =>
          ([fs, created, permitted, filled, gone.put place (complete fs target contents)], .ok ())

/-- Writes `contents` to `target`. -/
def write (fs : FileSystem) (target : Path) (contents : ByteArray) (faults : Faults) :
    FileSystem × Outcome Unit :=
  let (states, result) := stages fs target contents faults
  (states.getLast?.getD fs, do
    .ofExcept result
    .note (.bytesWritten target contents.size))

end AtomicWrite

end PhotoTally
