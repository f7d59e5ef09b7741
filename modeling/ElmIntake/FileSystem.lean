import ElmIntake.Path
import ElmIntake.Text.Utf8

/-! # File systems

    What a pass asks of a file system, and how an answer can fail. Reading a
    file and asking for its time are questions of their own: between the two
    the file may have changed. -/

namespace ElmIntake

/-! ## Faults -/

/-- Why a file system could not do what it was asked for. -/
inductive IoFault where
  /-- There is no file of this path, in a file system held in memory. -/
  | missing (path : Path)
  | denied
  | notFound
  | alreadyExists
  | notDirectory
  | isDirectory
  /-- A directory cannot be moved into itself. -/
  | invalid
  | notEmpty
  | tooManyLinks
  | nameTooLong
  | badName
  /-- A text file is not UTF-8. -/
  | notText
  /-- Any other fault, in its own words. -/
  | other (message : String)
  deriving Repr, DecidableEq, Inhabited

namespace IoFault

/-- The wording of a fault. Those of a disk carry the number under which
    operating systems know them. -/
def message : IoFault → String
  | missing path => s!"{path} does not exist"
  | denied => "permission denied"
  | notFound => "No such file or directory (os error 2)"
  | alreadyExists => "File exists (os error 17)"
  | notDirectory => "Not a directory (os error 20)"
  | isDirectory => "Is a directory (os error 21)"
  | invalid => "Invalid argument (os error 22)"
  | notEmpty => "Directory not empty (os error 39)"
  | tooManyLinks => "Too many levels of symbolic links (os error 40)"
  | nameTooLong => "File name too long (os error 36)"
  | badName => "file name contained an unexpected NUL byte"
  | notText => "stream did not contain valid UTF-8"
  | other message => message

instance : ToString IoFault := ⟨message⟩

/-- Does the fault say that there is nothing at the path? -/
def isNotFound : IoFault → Bool
  | missing _ | notFound => true
  | _ => false

end IoFault

/-! ## Access -/

/-- Modification times are whole seconds, which may be unknown. -/
abbrev FileTime := Option Int

/-- What can be asked of a file system. -/
structure FileSystem where
  /-- The content of a file. -/
  read : Path → Except IoFault Bytes
  /-- When a file was last changed. -/
  modified : Path → Except IoFault FileTime
  /-- Is there a file or directory? -/
  contains : Path → Bool
  isDirectory : Path → Bool
  /-- The files below a directory, in a fixed order, without those in
      directories that are to be skipped. -/
  walk : Path → (Path → Bool) → List Path

end ElmIntake
