import PhotoTally.Config

/-!
# What a command line asks for

The commands, the options that each of them takes, and the ways in which a command line can be
refused.
-/

namespace PhotoTally

/-- An argument as the system hands it over. -/
abbrev Argument := List UInt8

/-- The environment's say on the two roots. -/
structure Environment where
  source : Option Argument
  dest : Option Argument
  deriving DecidableEq

/-- What is to be done. -/
inductive Command where
  | run (config : Config) (dry : Bool)
  | status (ledger : Path)
  deriving DecidableEq

/-- A whole command line.  `threshold` is the least urgent level that the log file takes, if it
takes any. -/
structure Invocation where
  command : Command
  log : Bool
  threshold : Option Level
  deriving DecidableEq

namespace CommandLine

/-- Why a command line is not carried out. -/
inductive Refusal where
  | help
  | version
  | nothingGiven
  | commandMissing
  | commandUnknown
  | argumentUnknown
  | argumentMissing
  | valueMissing
  | valueUnwanted
  | valueInvalid
  | valueNotText
  | conflict
  deriving DecidableEq

/-- The exit code: asking for help or for the version is no mistake. -/
def Refusal.exitCode : Refusal → Nat
  | help | version => 0
  | _ => 2

/-- An option with a value. -/
inductive Setting where
  | source
  | dest
  | ledger
  | output
  | varName
  | logLevel
  deriving DecidableEq

/-- An option without a value. -/
inductive Switch where
  | json
  | dry
  | log
  | help
  | version
  deriving DecidableEq

/-- Whose options are being read: the program's own, or those of a command. -/
inductive Scope where
  | program
  | run
  | status
  deriving DecidableEq

/-- The options with a value. -/
def Scope.settings : Scope → List (String × Setting)
  | program => [("log-level", .logLevel)]
  | run =>
    [("source-dir", .source), ("dest-dir", .dest), ("ledger", .ledger), ("output", .output),
      ("var-name", .varName), ("log-level", .logLevel)]
  | status => [("ledger", .ledger), ("log-level", .logLevel)]

/-- The options without a value. -/
def Scope.switches : Scope → List (String × Switch)
  | program | status => [("log", .log), ("help", .help), ("version", .version)]
  | run =>
    [("json", .json), ("dry-run", .dry), ("log", .log), ("help", .help), ("version", .version)]

/-- The commands that can be named in the scope. -/
def Scope.commands : Scope → List (String × Scope)
  | program => [("run", .run), ("status", .status)]
  | run | status => []

/-- The name of the command that explains the others. -/
def helpName : String := "help"

/-! ## Values -/

/-- The names of the levels, and of none at all. -/
def levelNames : List (String × Option Level) :=
  [("off", none), ("error", some .error), ("warn", some .warn), ("info", some .info),
    ("debug", some .debug), ("trace", some .trace)]

/-- The level of a name in any mix of cases. -/
def level? (name : String) : Option (Option Level) :=
  (levelNames.find? fun e => e.1.toList = name.toList.map Char.toLower).map (·.2)

/-- Checks the value of an option. -/
def Setting.check (s : Setting) (value : Argument) : Except Refusal Unit :=
  match s with
  | source | dest | ledger | output => if value = [] then .error .valueMissing else .ok ()
  | varName => if (Text.ofBytes? value).isSome then .ok () else .error .valueNotText
  | logLevel =>
    match Text.ofBytes? value with
    | none => .error .valueNotText
    | some name => if (level? name).isSome then .ok () else .error .valueInvalid

end CommandLine

end PhotoTally
