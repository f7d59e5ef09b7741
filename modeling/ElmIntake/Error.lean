import ElmIntake.Diagnostic
import ElmIntake.FileSystem

/-! # Errors of a pass

    Everything that can go wrong while sources are taken in. Only an error in a
    source file leaves the pass going; every other one ends it. -/

namespace ElmIntake

/-- What went wrong. -/
inductive IngestError where
  | manifestNotFound (path : Path)
  | manifestInvalid (path : Path) (message : String)
  | optionsInvalid (path : Path) (message : String)
  /-- Nothing to take in under some of the places that were asked for. -/
  | noFilesFound (directories : List Path)
  | fileRead (path : Path) (fault : IoFault)
  /-- The file at the path is no good source. -/
  | parse (path : Path) (diagnostics : List Diagnostic)
  | poolNotPrepared
  deriving Repr, DecidableEq

/-- What kind of thing went wrong. -/
inductive ErrorKind where
  | config
  | noFilesFound
  | fileRead
  | parse
  | poolMisuse
  deriving Repr, DecidableEq

/-- The code of a kind of error. -/
def ErrorKind.code : ErrorKind → String
  | config => "CONFIG_ERROR"
  | noFilesFound => "NO_FILES_FOUND"
  | fileRead => "FILE_READ_ERROR"
  | parse => "PARSE_ERROR"
  | poolMisuse => "WORKER_POOL_MISUSE"

instance : ToString ErrorKind := ⟨ErrorKind.code⟩

namespace IngestError

/-- What kind of error it is. -/
def kind : IngestError → ErrorKind
  | manifestNotFound _ | manifestInvalid .. | optionsInvalid .. => .config
  | noFilesFound _ => .noFilesFound
  | fileRead .. => .fileRead
  | parse .. => .parse
  | poolNotPrepared => .poolMisuse

/-- Does the error end the pass? -/
def isFatal (e : IngestError) : Bool := e.kind != .parse

/-- The file that the error is about. -/
def path? : IngestError → Option Path
  | manifestNotFound path | manifestInvalid path _ | optionsInvalid path _ | fileRead path _
  | parse path _ => some path
  | noFilesFound _ | poolNotPrepared => none

/-- The first of some diagnostics, and how many more there are. -/
def firstOf : List Diagnostic → String
  | [] => "unknown parse error"
  | [d] => toString d
  | d :: ds => s!"{d} (and {ds.length} more)"

/-- The wording of an error. -/
def message : IngestError → String
  | manifestNotFound path => s!"Could not find the project manifest at {path}"
  | manifestInvalid path message =>
    s!"Could not parse the project manifest at {path}: {message}"
  | optionsInvalid path message => s!"Could not parse the options file at {path}: {message}"
  | noFilesFound directories =>
    "No Elm files found in: " ++ ", ".intercalate (directories.map Path.text)
  | fileRead path fault => s!"Could not read {path}: {fault}"
  | parse path diagnostics => s!"Could not parse {path}: {firstOf diagnostics}"
  | poolNotPrepared => "Parse requested before the parser pool was prepared"

instance : ToString IngestError := ⟨message⟩

end IngestError

end ElmIntake
