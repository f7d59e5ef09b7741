import ElmIntake.Path

/-! # Arguments of the command line

    Arguments are **switches** such as `--watch`, **settings** that take a
    value, and everything else, which names directories and files. A value can
    be attached to its setting or be the next argument; it is only looked at
    when the setting is complete, that is, when the next known argument begins.
    So an unknown argument is reported before a bad value to its left. -/

namespace ElmIntake.CommandLine

/-! ## What can be given -/

/-- An argument that takes no value. -/
inductive Switch where
  | watch
  | noCache
  | trustTime
  | clearCache
  | help
  | version
  deriving Repr, DecidableEq

/-- An argument that takes a value. -/
inductive Setting where
  | manifest
  | config
  | cacheDir
  | ignoreDirs
  | ignoreFiles
  | jobs
  /-- The directories and files to take in, which need no name. -/
  | directories
  deriving Repr, DecidableEq

/-- A named argument. -/
inductive Argument where
  | switch (s : Switch)
  | setting (s : Setting)
  deriving Repr, DecidableEq

/-- The argument of a long name. -/
def Argument.ofLongName : String → Option Argument
  | "elmjson" => some (.setting .manifest)
  | "config" => some (.setting .config)
  | "watch" => some (.switch .watch)
  | "no-cache" => some (.switch .noCache)
  | "cache-dir" => some (.setting .cacheDir)
  | "trust-mtime" => some (.switch .trustTime)
  | "ignore-dirs" => some (.setting .ignoreDirs)
  | "ignore-files" => some (.setting .ignoreFiles)
  | "jobs" => some (.setting .jobs)
  | "clear-cache" => some (.switch .clearCache)
  | "help" => some (.switch .help)
  | "version" => some (.switch .version)
  | _ => none

/-- The argument of a short name. -/
def Argument.ofShortName : Char → Option Argument
  | 'w' => some (.switch .watch)
  | 'j' => some (.setting .jobs)
  | 'h' => some (.switch .help)
  | 'V' => some (.switch .version)
  | _ => none

/-- What the command line says. -/
structure Arguments where
  directories : List Path := []
  manifest : Option Path := none
  config : Option Path := none
  watch : Bool := false
  noCache : Bool := false
  cacheDir : Option Path := none
  trustTime : Bool := false
  ignoreDirs : List Path := []
  ignoreFiles : List String := []
  jobs : Option Nat := none
  clearCache : Bool := false
  deriving Repr, DecidableEq

/-- Why the command line says nothing that can be done. -/
inductive Refusal where
  /-- Help was asked for. -/
  | help
  /-- The version was asked for. -/
  | version
  | unknownArgument
  /-- A value is missing or empty. -/
  | missingValue
  /-- A value is not what it should be. -/
  | badValue
  /-- A switch was given a value. -/
  | valueForSwitch
  /-- Something that can be said once was said twice. -/
  | repeated
  deriving Repr, DecidableEq

/-- The wording of a refusal. -/
def Refusal.message : Refusal → String
  | .help => "help was asked for"
  | .version => "the version was asked for"
  | .unknownArgument => "unexpected argument"
  | .missingValue => "a value is required"
  | .badValue => "invalid value"
  | .valueForSwitch => "unexpected value"
  | .repeated => "the argument cannot be used multiple times"

/-- The forms of the command line. -/
def usage : String := "Usage: elm-ingest [OPTIONS] [DIRS]..."

/-- What is said about the command line when help is asked for. -/
def help : List String :=
  ["elm-ingest - incremental parsing of Elm projects",
   "",
   usage,
   "",
   "Arguments:",
   "  [DIRS]...  Directories or files to ingest " ++
     "(default: the elm.json source directories and tests/)",
   "",
   "Options:",
   "      --elmjson <FILE>        Path to elm.json",
   "      --config <FILE>         Load options from a JSON file; flags override its fields",
   "  -w, --watch                 Watch for changes and re-ingest",
   "      --no-cache              Neither read nor write the durable cache",
   "      --cache-dir <DIR>       Durable cache root",
   "      --trust-mtime           In watch mode, skip reading files whose modification time " ++
     "has not moved",
   "      --ignore-dirs <DIRS>    Directories to skip, comma-separated",
   "      --ignore-files <GLOBS>  Glob patterns of files to skip, comma-separated",
   "  -j, --jobs <N>              Maximum number of parser threads",
   "      --clear-cache           Empty the durable cache before ingesting",
   "  -h, --help                  Print help",
   "  -V, --version               Print version"]

/-! ## Taking up values -/

namespace Arguments

/-- Takes up a switch. -/
def setSwitch (a : Arguments) : Switch → Except Refusal Arguments
  | .watch => if a.watch then .error .repeated else .ok { a with watch := true }
  | .noCache => if a.noCache then .error .repeated else .ok { a with noCache := true }
  | .trustTime => if a.trustTime then .error .repeated else .ok { a with trustTime := true }
  | .clearCache => if a.clearCache then .error .repeated else .ok { a with clearCache := true }
  | .help => .error .help
  | .version => .error .version

/-- A value that has to be a path. -/
def path (value : String) : Except Refusal Path :=
  if value = "" then .error .missingValue else .ok ⟨value⟩

/-- The only value of a setting that may be given once. -/
def only {α : Type} (known : Option α) (read : String → Except Refusal α) (values : List String) :
    Except Refusal (Option α) :=
  if known.isSome then .error .repeated
  else
    match values with
    | [value] => (read value).map some
    | _ => .error .missingValue

/-- The greatest number that can be given. -/
def maxCount : Nat := UInt64.size - 1

/-- A value that has to be a number. -/
def countOf (value : String) : Except Refusal Nat :=
  let digits := match value.toList with
    | '+' :: cs => cs
    | cs => cs
  if digits = [] ∨ digits.any (!·.isDigit) then .error .badValue
  else
    let n := digits.foldl (fun n c => 10 * n + (c.toNat - '0'.toNat)) 0
    if n ≤ maxCount then .ok n else .error .badValue

/-- The texts between the commas of a text. -/
def splitAtCommas (value : String) : List String := value.splitOn ","

/-- Takes up the values of a setting, of which there has to be one. -/
def setSetting (a : Arguments) (s : Setting) (values : List String) :
    Except Refusal Arguments := do
  if values = [] then throw .missingValue
  match s with
  | .manifest => return { a with manifest := ← only a.manifest path values }
  | .config => return { a with config := ← only a.config path values }
  | .cacheDir => return { a with cacheDir := ← only a.cacheDir path values }
  | .jobs => return { a with jobs := ← only a.jobs countOf values }
  | .ignoreDirs =>
    return { a with ignoreDirs := a.ignoreDirs ++ (← (values.flatMap splitAtCommas).mapM path) }
  | .ignoreFiles => return { a with ignoreFiles := a.ignoreFiles ++ values.flatMap splitAtCommas }
  | .directories => return { a with directories := a.directories ++ (← values.mapM path) }

end Arguments

/-! ## Going through the command line -/

/-- What was understood so far. -/
structure Progress where
  arguments : Arguments := {}
  /-- A setting that is not complete yet, and its values. -/
  pending : Option (Setting × List String) := none
  /-- Does the setting wait for its value? -/
  waiting : Bool := false
  deriving Repr, DecidableEq

namespace Progress

/-- Takes up the setting that is not complete yet. -/
def settle (p : Progress) : Except Refusal Arguments :=
  match p.pending with
  | none => .ok p.arguments
  | some (s, values) => p.arguments.setSetting s values

/-- Goes on with a switch. -/
def addSwitch (p : Progress) (s : Switch) : Except Refusal Progress := do
  return { arguments := ← (← p.settle).setSwitch s }

/-- Goes on with a setting whose value is attached to it. -/
def addSetting (p : Progress) (s : Setting) (value : String) : Except Refusal Progress := do
  return { arguments := ← (← p.settle).setSetting s [value] }

/-- Goes on with a setting whose value is to follow. -/
def startSetting (p : Progress) (s : Setting) : Except Refusal Progress := do
  return { arguments := ← p.settle, pending := some (s, []), waiting := true }

/-- Goes on with an argument without a name. -/
def addDirectory (p : Progress) (value : String) : Except Refusal Progress :=
  match p.pending with
  | some (.directories, values) => .ok { p with pending := some (.directories, values ++ [value]) }
  | _ => do return { arguments := ← p.settle, pending := some (.directories, [value]) }

/-- Goes on with a text that is the value waited for, or else an argument without
    a name. -/
def addValue (p : Progress) (value : String) : Except Refusal Progress :=
  match p.waiting, p.pending with
  | true, some (s, _) => .ok { p with pending := some (s, [value]), waiting := false }
  | _, _ => p.addDirectory value

/-- Goes on with a long name, and the value attached to it by `=`. -/
def addLong (p : Progress) (name : String) (value : Option String) : Except Refusal Progress :=
  match Argument.ofLongName name, value with
  | none, _ => .error .unknownArgument
  | some (.switch s), none => p.addSwitch s
  | some (.switch _), some _ => .error .valueForSwitch
  | some (.setting s), some value => p.addSetting s value
  | some (.setting s), none => p.startSetting s

/-- Goes on with short names in a row. What follows a setting is its value, with
    or without `=` between them. -/
def addShort (p : Progress) : List Char → Except Refusal Progress
  | [] => .ok p
  | c :: cs =>
    match Argument.ofShortName c, cs with
    | none, _ => .error .unknownArgument
    | some (.switch s), cs =>
      match p.addSwitch s with
      | .ok p => p.addShort cs
      | .error refusal => .error refusal
    | some (.setting s), [] => p.startSetting s
    | some (.setting s), '=' :: value => p.addSetting s (String.ofList value)
    | some (.setting s), value => p.addSetting s (String.ofList value)

/-- Goes on with an argument. -/
def add (p : Progress) (argument : String) : Except Refusal Progress :=
  match argument.toList with
  | '-' :: '-' :: cs =>
    let name := cs.takeWhile (· != '=')
    let value := match cs.dropWhile (· != '=') with
      | [] => none
      | _ :: value => some (String.ofList value)
    p.addLong (String.ofList name) value
  | '-' :: c :: cs => p.addShort (c :: cs)
  | _ => p.addValue argument

/-- Goes on with all arguments. After `--` none of them has a name. -/
def addAll (p : Progress) : List String → Except Refusal Progress
  | [] => .ok p
  | "--" :: rest => rest.foldlM addDirectory { p with waiting := false }
  | argument :: rest =>
    match p.add argument with
    | .ok p => p.addAll rest
    | .error refusal => .error refusal

end Progress

/-- What some arguments say. -/
def Arguments.ofList (arguments : List String) : Except Refusal Arguments := do
  (← ({} : Progress).addAll arguments).settle

end ElmIntake.CommandLine
