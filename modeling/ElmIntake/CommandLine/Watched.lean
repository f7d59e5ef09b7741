import ElmIntake.Discovery
import ElmIntake.Options

/-! # Which changes matter

    When a project is watched, a change of a source or of a manifest calls for
    another pass, wherever it is; what is written among the generated files of a
    project never does. -/

namespace ElmIntake.CommandLine

/-- The name of the directory of generated files. -/
def generatedName : String := "elm-stuff"

/-- Does a change of the file at a path call for another pass? -/
def isWatched (path : Path) : Bool :=
  !path.names.contains generatedName &&
    (path.hasSourceExtension || path.fileName == some Options.manifestName)

end ElmIntake.CommandLine
