import ElmIntake.FileSystem
import ElmIntake.Path.Pattern

/-! # Finding sources

    A project names directories and files; **discovery** turns each of these
    entries into the sources that it stands for, as paths seen from the project
    root. A source has the extension `elm` and lies neither in a directory of
    generated or foreign files nor in what the user leaves out. -/

namespace ElmIntake

/-! ## Which files are sources -/

namespace Path

/-- The extension of sources, in any case. -/
def sourceExtension : String := "elm"

/-- Names of directories that hold no sources of the project, in any case. -/
def excludedNames : List String := ["elm-stuff", "node_modules"]

/-- Does the path end as that of a source? -/
def hasSourceExtension (p : Path) : Bool :=
  match p.extension with
  | some e => sameLetters e sourceExtension
  | none => false

/-- Does the path lead through a directory that holds no sources? -/
def hasExcludedName (p : Path) : Bool :=
  p.names.any fun name => excludedNames.any (sameLetters name)

end Path

/-- What is taken for a source. -/
structure SourceFilter where
  projectRoot : Path
  /-- Directories to leave out, seen from the project root. -/
  ignoredDirs : List Path
  /-- Files to leave out, seen from the project root. -/
  ignoresFile : Path → Bool

namespace SourceFilter

/-- Leaves out the files that match one of some patterns. A text that is no
    pattern leaves out none. -/
def ofPatterns (projectRoot : Path) (ignoredDirs : List Path) (patterns : List String) :
    SourceFilter where
  projectRoot := projectRoot
  ignoredDirs := ignoredDirs.map Path.normalize
  ignoresFile :=
    let patterns := patterns.filterMap Pattern.ofText
    fun path => patterns.any (·.matchesText path.text)

/-- Does the path, seen from the project root, lie in a directory to leave
    out? -/
def ignoresDir (f : SourceFilter) (path : Path) : Bool := f.ignoredDirs.any path.startsWith

/-- Is the file at a path, seen from the project root, a source? -/
def accepts (f : SourceFilter) (path : Path) : Bool :=
  path.hasSourceExtension && !path.hasExcludedName && !f.ignoresDir path && !f.ignoresFile path

/-- The path as seen from the project root, if it lies below, and without
    dots. -/
def relative (f : SourceFilter) (path : Path) : Path :=
  ((path.below? f.projectRoot).getD path).normalize

/-- Is a directory not even to be entered? -/
def excludesDir (f : SourceFilter) (dir : Path) : Bool :=
  (f.relative dir).hasExcludedName || f.ignoresDir (f.relative dir)

end SourceFilter

/-! ## Scans -/

/-- The sources that an entry stands for. -/
structure Scan where
  directory : Path
  files : List Path
  deriving Repr, DecidableEq

namespace Scan

/-- The sources of an entry: all below it if it is a directory, itself if it is a
    file, and none if there is nothing. -/
def ofEntry (f : SourceFilter) (fs : FileSystem) (entry : Path) : Scan :=
  let place := f.projectRoot.join entry
  let found :=
    if fs.isDirectory place then (fs.walk place f.excludesDir).map f.relative
    -- A file that was named counts like one that was found, filter and all.
    else if fs.contains place then [f.relative place]
    else []
  ⟨entry, found.filter f.accepts⟩

/-- The paths without those that have come before; `seen` are the parts of
    these. -/
def distinct (seen : List (List PathPart)) : List Path → List Path
  | [] => []
  | p :: ps =>
    let parts := p.parts
    if seen.contains parts then distinct seen ps else p :: distinct (parts :: seen) ps

/-- All sources of some scans, each one where it comes first. -/
def dedupe (scans : List Scan) : List Path := distinct [] (scans.flatMap (·.files))

end Scan

end ElmIntake
