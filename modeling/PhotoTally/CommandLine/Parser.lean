import PhotoTally.CommandLine.Basic

/-!
# Reading a command line

The arguments are read from left to right.  The value of an option is the rest of its argument
behind `=`, or the next argument, unless that begins with a dash; it is checked when the option
that follows is met.  The program's own options end where a command is named; that command's
arguments are read to their end before the program's last option is checked.
-/

namespace PhotoTally.CommandLine

/-- The options that have been read and checked. -/
structure Given where
  settings : List (Setting × Argument)
  switches : List Switch

namespace Given

def empty : Given := ⟨[], []⟩

/-- The value given for an option. -/
def value? (g : Given) (s : Setting) : Option Argument :=
  (g.settings.find? (·.1 = s)).map (·.2)

def has (g : Given) (s : Switch) : Bool := g.switches.contains s

/-- Takes up an option with its value.  No option comes twice. -/
def addSetting (g : Given) (s : Setting) (value : Argument) : Except Refusal Given :=
  if (g.value? s).isSome then .error .conflict
  else (s.check value).map fun _ => { g with settings := g.settings ++ [(s, value)] }

/-- Takes up an option without a value. -/
def addSwitch (g : Given) (s : Switch) : Except Refusal Given :=
  if g.has s then .error .conflict
  else match s with
    | .help => .error .help
    | .version => .error .version
    | s => .ok { g with switches := g.switches ++ [s] }

end Given

/-- What has been read of a scope's arguments: the options taken up, and the last option with a
value, which is still to be checked and may still lack its value. -/
structure Progress where
  given : Given
  last : Option (Setting × Option Argument)

namespace Progress

def start : Progress := ⟨.empty, none⟩

/-- Whether the last option lacks its value. -/
def isWaiting (p : Progress) : Bool :=
  match p.last with
  | some (_, none) => true
  | _ => false

/-- Takes up the last option. -/
def settle (p : Progress) : Except Refusal Given :=
  match p.last with
  | none => .ok p.given
  | some (_, none) => .error .valueMissing
  | some (s, some value) => p.given.addSetting s value

end Progress

/-- A scope's options, and the command that ended them, with its arguments. -/
abbrev Reading := Progress × Option (Scope × List Argument)

/-- The byte `-`. -/
def dash : UInt8 := 45

/-- The byte `=`. -/
def equals : UInt8 := 61

/-- The command that an argument names. -/
def Scope.command? (scope : Scope) (a : Argument) : Option Scope :=
  (Text.ofBytes? a).bind fun name => (scope.commands.find? (·.1 = name)).map (·.2)

/-- Whether an argument asks for the explanation of commands. -/
def Scope.isHelp (scope : Scope) (a : Argument) : Bool :=
  scope = .program && Text.ofBytes? a = some helpName

/-- Why an argument is refused that is neither an option nor a value.  Behind `--` a command's name
is out of place rather than unknown. -/
def Scope.refusal (scope : Scope) (behindDashes : Bool) (a : Argument) : Refusal :=
  if scope ≠ .program then .argumentUnknown
  else if behindDashes && ((scope.command? a).isSome || scope.isHelp a) then .argumentUnknown
  else .commandUnknown

/-- The outcome of asking for an explanation of the named commands. -/
def explain (scope : Scope) : List Argument → Refusal
  | [] => .help
  | a :: rest =>
    match scope.command? a with
    | some inner => explain inner rest
    | none =>
      if scope.isHelp a && rest.isEmpty then .help else .commandUnknown

/-- Reads an option that is spelt out, from behind its two dashes. -/
def readLong (scope : Scope) (p : Progress) (spelling : Argument) : Except Refusal Progress :=
  let name := spelling.takeWhile (· ≠ equals)
  let value :=
    if name.length < spelling.length then some (spelling.drop (name.length + 1)) else none
  match Text.ofBytes? name with
  | none => .error .argumentUnknown
  | some name =>
    match scope.settings.find? (·.1 = name), scope.switches.find? (·.1 = name) with
    | some (_, s), _ => do
      let given ← p.settle
      match value with
      | some value => return ⟨← given.addSetting s value, none⟩
      | none => return ⟨given, some (s, none)⟩
    | none, some (_, s) =>
      if value.isSome then .error .valueUnwanted
      else do
        let given ← p.settle
        return ⟨← given.addSwitch s, none⟩
    | none, none => .error .argumentUnknown

/-- Reads options of one letter, from behind their dash.  The first one decides, since each of them
ends the reading. -/
def readShort (p : Progress) (letters : Argument) : Except Refusal Progress :=
  match letters.head? with
  | some 104 => p.settle >>= fun _ => .error .help
  | some 86 => p.settle >>= fun _ => .error .version
  | _ => .error .argumentUnknown

/-- Reads the arguments of a scope. -/
def readArguments (scope : Scope) : Progress → List Argument → Except Refusal Reading
  | p, [] => .ok (p, none)
  | p, a :: rest =>
    match (if p.isWaiting then none else scope.command? a) with
    | some inner => .ok (p, some (inner, rest))
    | none =>
      if !p.isWaiting && scope.isHelp a then .error (explain scope rest)
      else match a with
        | [45, 45] =>
          match rest with
          | [] => .ok (p, none)
          | a :: _ => .error (scope.refusal true a)
        | 45 :: 45 :: spelling =>
          match readLong scope p spelling with
          | .error e => .error e
          | .ok p => readArguments scope p rest
        | 45 :: letter :: letters =>
          match readShort p (letter :: letters) with
          | .error e => .error e
          | .ok p => readArguments scope p rest
        | a =>
          match p.last with
          | some (s, none) => readArguments scope ⟨p.given, some (s, some a)⟩ rest
          | _ => .error (scope.refusal false a)

/-- Takes the value of an option from the environment if the command line gives none. -/
def Given.orElse (g : Given) (s : Setting) (value : Option Argument) : Except Refusal Given :=
  match g.value? s, value with
  | none, some value => g.addSetting s value
  | _, _ => .ok g

/-- The path given for an option, or else the default. -/
def Given.path (g : Given) (s : Setting) (default : Path) : Path :=
  ((g.value? s).map Path.mk).getD default

/-- The format that the options ask for. -/
def Given.format (g : Given) : OutputFormat :=
  if g.has .json then .json
  else .script (((g.value? .varName).bind Text.ofBytes?).getD Config.defaultVariable)

/-- The command of a scope with its options. -/
def commandOf (env : Environment) (scope : Scope) (g : Given) : Except Refusal Command :=
  match scope with
  | .run => do
    let g ← g.orElse .source env.source
    let g ← g.orElse .dest env.dest
    if g.has .json && (g.value? .varName).isSome then .error .conflict
    else match g.value? .source, g.value? .dest with
      | some source, some dest =>
        return .run
          { source := ⟨source⟩
            dest := ⟨dest⟩
            ledger := g.path .ledger Config.defaultLedger
            output := g.path .output Config.defaultOutput
            format := g.format }
          (g.has .dry)
      | _, _ => .error .argumentMissing
  | .status => return .status (g.path .ledger Config.defaultLedger)
  | .program => .error .commandMissing

/-- The level given for the log file. -/
def Given.level? (g : Given) : Option (Option Level) :=
  ((g.value? .logLevel).bind Text.ofBytes?).bind CommandLine.level?

/-- The command line that the arguments spell. -/
def parse (env : Environment) (args : List Argument) : Except Refusal Invocation := do
  let (outer, named) ← readArguments .program .start args
  match named with
  | none =>
    let g ← outer.settle
    if g.settings.isEmpty && g.switches.isEmpty then .error .nothingGiven
    else .error .commandMissing
  | some (scope, rest) =>
    let (inner, _) ← readArguments scope .start rest
    let given ← inner.settle
    let command ← commandOf env scope given
    let g ← outer.settle
    return {
      command
      log := given.has .log || g.has .log
      threshold := (given.level?.or g.level?).getD (some .debug) }

end PhotoTally.CommandLine
