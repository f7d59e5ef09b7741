import ElmIntake.FileSystem
import ElmIntake.Syntax.Outcome

/-! # Sessions

    A **session** remembers, for as long as the program runs, the last content
    and outcome of each file, under the file's path. -/

namespace ElmIntake

/-- What is known about a file. -/
structure SessionEntry where
  path : Path
  /-- The time of the file when it was last found good. -/
  modified : FileTime
  content : Bytes
  outcome : Outcome
  deriving Repr, DecidableEq

/-- Entries, each path once. -/
structure Session where
  entries : List SessionEntry := []
  deriving Repr, DecidableEq

namespace Session

/-- The entry of a path. -/
def get? (s : Session) (path : Path) : Option SessionEntry :=
  s.entries.find? fun e => path.same e.path

/-- Puts an entry in the place of that of its path. -/
def insert (s : Session) (e : SessionEntry) : Session :=
  ⟨e :: s.entries.filter fun old => !e.path.same old.path⟩

/-- Keeps the entries of some paths only. -/
def retain (s : Session) (keep : Path → Bool) : Session :=
  ⟨s.entries.filter fun e => keep e.path⟩

/-- How many files are known. -/
def size (s : Session) : Nat := s.entries.length

/-- Is no file known? -/
def isEmpty (s : Session) : Bool := s.size == 0

end Session

end ElmIntake
