import ElmIntake.Error
import ElmIntake.FileSystem.Disk
import ElmIntake.Json.Record

/-! # Options

    What a user can ask of the taking in of a project, and how it is written in
    an options file. -/

namespace ElmIntake

/-- How it is decided that a file has not changed since it was last read. -/
inductive Freshness where
  /-- The bytes of the file are the same. -/
  | content
  /-- The file is not newer than what was read; it need not be read again. -/
  | trustTime
  deriving Repr, DecidableEq, Inhabited

/-- The name of a way to decide, in options files. -/
def Freshness.name : Freshness → String
  | content => "content"
  | trustTime => "trust-mtime"

/-- The options of a session. -/
structure Options where
  /-- The directory that all reported paths start from. -/
  projectRoot : Path := ⟨"."⟩
  manifestPath : Option Path := none
  /-- Directories and files to take in instead of those of the manifest. -/
  directories : List Path := []
  /-- Will there be many passes? -/
  watch : Bool := false
  /-- Are results kept on disk? -/
  useCache : Bool := true
  cacheRoot : Option Path := none
  freshness : Freshness := .content
  /-- Directories to leave out, seen from the project root. -/
  ignoredDirs : List Path := []
  /-- Patterns of paths of files to leave out. -/
  ignoredFiles : List String := []
  /-- How many workers there may be. -/
  workers : Option Nat := none
  deriving Repr, DecidableEq, Inhabited

namespace Options

/-- The name of the manifest in its project. -/
def manifestName : String := "elm.json"

/-- The place of the manifest: by default, in the project root. -/
def manifest (o : Options) : Path := o.manifestPath.getD (o.projectRoot.child manifestName)

/-- The directory of the durable cache: by default, among the generated files of
    the project. -/
def cacheDirectory (o : Options) : Path :=
  o.cacheRoot.getD (((o.projectRoot.child "elm-stuff").child "generated-code").child "elm-ingest")

/-! ## Options files -/

open Json (Reader)

/-- Reads a path. -/
def readPath : Reader Path := do return ⟨← Reader.text "path string"⟩

/-- A field of the options that need not be there. -/
def field {α : Type} (name : String) (read : Reader α) (change : α → Options → Options) :
    Reader.Field Options where
  name := name
  required := false
  read := do return change (← read)

/-- How options are written. -/
def record : Reader.Record Options where
  name := "IngestOptions"
  initial := {}
  fields :=
    [field "projectRoot" readPath fun projectRoot o => { o with projectRoot },
     field "manifestPath" (.optional readPath) fun manifestPath o => { o with manifestPath },
     field "directories" (.list readPath) fun directories o => { o with directories },
     field "watch" .switch fun watch o => { o with watch },
     field "useCache" .switch fun useCache o => { o with useCache },
     field "cacheRoot" (.optional readPath) fun cacheRoot o => { o with cacheRoot },
     field "freshness"
       (.variant ([Freshness.content, .trustTime].map fun f => (f.name, f)))
       fun freshness o => { o with freshness },
     field "ignoredDirs" (.list readPath) fun ignoredDirs o => { o with ignoredDirs },
     field "ignoredFiles" (.list (Reader.text "a string")) fun ignoredFiles o =>
       { o with ignoredFiles },
     field "workers" (.optional .count) fun workers o => { o with workers }]

/-- The options that a document gives. -/
def ofJson (document : Bytes) : Except Json.Fault Options :=
  (Reader.whole (Reader.record record)).onDocument document

/-- The options in a file on disk. -/
def load (d : Disk) (path : Path) : Except IngestError Options :=
  match d.readText path with
  | .error fault => .error (.fileRead path fault)
  | .ok text =>
    (ofJson (Text.toUtf8 text)).mapError fun fault => .optionsInvalid path (toString fault)

end Options

end ElmIntake
