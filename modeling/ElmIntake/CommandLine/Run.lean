import ElmIntake.CommandLine.Arguments
import ElmIntake.Pass.OnDisk

/-! # Runs of the program

    One run takes in a project once, with options from a file, if one is named,
    and from the command line, which has the last word. What it prints and what
    it leaves on disk are computed from the arguments and the disk. -/

namespace ElmIntake.CommandLine

/-! ## Options -/

/-- The path of the current directory. -/
def currentDirectory (d : Disk) : Path := .ofParts (.root :: d.cwd.map PathPart.name)

/-- The options to start from: those of the options file, or else those of a
    project in the current directory. -/
def baseOptions (d : Disk) (a : Arguments) : Except IngestError Options :=
  match a.config with
  | some path => Options.load d path
  | none => .ok { projectRoot := currentDirectory d }

/-- The options with what the command line says about the place of the
    project. -/
def placeProject (cwd : Path) (a : Arguments) (o : Options) : Options :=
  match a.manifest with
  | none => { o with projectRoot := cwd.join o.projectRoot }
  | some manifest =>
    let manifest := cwd.join manifest
    { o with projectRoot := manifest.parent.getD cwd, manifestPath := some manifest }

/-- The directories as the project sees them. On the command line they are named
    as seen from the current directory. -/
def placeDirectories (cwd : Path) (a : Arguments) (o : Options) : Options :=
  if a.directories = [] then o
  else if o.projectRoot.same cwd then { o with directories := a.directories }
  else { o with directories := a.directories.map cwd.join }

/-- The options with everything else that the command line says. -/
def override (cwd : Path) (a : Arguments) (o : Options) : Options :=
  { o with
    watch := o.watch || a.watch
    useCache := o.useCache && !a.noCache
    cacheRoot := match a.cacheDir with
      | some dir => some (cwd.join dir)
      | none => o.cacheRoot
    freshness := if a.trustTime then .trustTime else o.freshness
    ignoredDirs := o.ignoredDirs ++ a.ignoreDirs
    ignoredFiles := o.ignoredFiles ++ a.ignoreFiles
    workers := a.jobs.orElse fun _ => o.workers }

/-- The options of a run, or why there are none. -/
def options (d : Disk) (a : Arguments) : Except String Options :=
  let cwd := currentDirectory d
  match baseOptions d a with
  | .error e => .error s!"Failed to load config file: {e}"
  | .ok o => .ok (override cwd a (placeDirectories cwd a (placeProject cwd a o)))

/-! ## What is printed -/

/-- What a run leaves behind. -/
structure Report where
  /-- The exit code. -/
  code : Nat
  output : List String := []
  errors : List String := []
  deriving Repr, DecidableEq

namespace Report

/-- A run that could not start. -/
def failed (message : String) : Report := { code := 1, errors := [s!"Error: {message}"] }

/-- A run whose pass failed. -/
def ofError (e : IngestError) : Report := { code := 1, errors := [s!"Error [{e.kind}]: {e}"] }

/-- A run whose pass was made. -/
def ofOutput (o : Output) : Report where
  code := if o.hasErrors then 1 else 0
  output := [s!"Ingested {o.stats}"]
  errors := o.files.flatMap fun file => file.outcome.diagnostics.map fun d => s!"{file.path}:{d}"

/-- What is said when the cache could not be emptied: the fault and, if it is one
    of the disk, its cause. -/
def clearFailed (e : CacheError) : Report :=
  let causes : List String :=
    match e with
    | .io fault => [s!"    0: {e}", s!"    1: {fault}"]
    | _ => [s!"    {e}"]
  failed ("\n".intercalate (["Failed to clear the durable cache", "", "Caused by:"] ++ causes))

/-- The name of the program and its version. -/
def programVersion : String := "elm-ingest 0.1.0"

/-- A run that was refused because of its arguments. -/
def refused : Refusal → Report
  | .help => { code := 0, output := help }
  | .version => { code := 0, output := [programVersion] }
  | refusal => { code := 2, errors := [s!"error: {refusal.message}", "", usage] }

end Report

/-! ## Runs -/

/-- Takes in the project that the options describe, with an empty session. -/
def pass (d : Disk) (o : Options) (clearFirst : Bool) : Report × Disk :=
  let intake := Intake.ofOptions (currentDirectory d) o
  let state := intake.start d
  let (cleared, state, d) :=
    if clearFirst then Intake.clearOnDisk d state else (.ok (), state, d)
  match cleared with
  | .error e => (.clearFailed e, d)
  | .ok () =>
    match intake.runWithDisk d.fileSystem d .elm state with
    | (.ok output, _, d) => (.ofOutput output, d)
    | (.error e, _, d) => (.ofError e, d)

/-- One run of the program. -/
def run (d : Disk) (arguments : List String) : Report × Disk :=
  match Arguments.ofList arguments with
  | .error refusal => (.refused refusal, d)
  | .ok a =>
    match options d a with
    | .error message => (.failed message, d)
    | .ok o => pass d o a.clearCache

end ElmIntake.CommandLine
