import ElmIntake.FileSystem

/-! # File systems in memory

    Files under their paths and nothing else: a directory is there as long as
    some file lies below it. The files are kept in the order of their paths,
    each path once, which is also the order of a walk. -/

namespace ElmIntake

/-- A file held in memory. -/
structure MemoryFile where
  content : Bytes
  modified : FileTime
  /-- May the file be read? -/
  readable : Bool
  deriving Repr, DecidableEq

namespace Memory

/-- Files under their paths. -/
abbrev Files := List (Path × MemoryFile)

/-- Each path lies before those that follow it. -/
abbrev Ordered (files : Files) : Prop := files.Pairwise (fun a b => a.1 < b.1)

/-- Puts a file under a path: in the place of the one that is there, which keeps
    the path as it was written, or else in front of the first greater path. -/
def place (path : Path) (file : MemoryFile) : Files → Files
  | [] => [(path, file)]
  | entry :: files =>
    if path.same entry.1 then (entry.1, file) :: files
    else if path < entry.1 then (path, file) :: entry :: files
    else entry :: place path file files

/-- Changes the file under a path, if there is one. -/
def change (path : Path) (f : MemoryFile → MemoryFile) (files : Files) : Files :=
  files.map fun entry => if path.same entry.1 then (entry.1, f entry.2) else entry

/-- What lies in the files after placing one was placed or was there. -/
theorem place_fst {path : Path} {file : MemoryFile} {files : Files} {q : Path}
    (h : ∀ entry ∈ files, q < entry.1) (hq : q < path) :
    ∀ entry ∈ place path file files, q < entry.1 := by
  induction files with
  | nil => simpa [place] using hq
  | cons e es ih =>
    intro entry
    simp only [place]
    split
    · intro he
      rcases List.mem_cons.1 he with rfl | he
      · exact h e (by simp)
      · exact h entry (by simp [he])
    · split
      · intro he
        rcases List.mem_cons.1 he with rfl | he
        · exact hq
        · exact h entry he
      · intro he
        rcases List.mem_cons.1 he with rfl | he
        · exact h entry (by simp)
        · exact ih (fun e he => h e (by simp [he])) entry he

theorem place_ordered {path : Path} {file : MemoryFile} {files : Files} (h : Ordered files) :
    Ordered (place path file files) := by
  induction files with
  | nil => simp [place]
  | cons e es ih =>
    have he := List.pairwise_cons.1 h
    simp only [place]
    split
    · exact List.pairwise_cons.2 ⟨he.1, he.2⟩
    · split
      · next hlt =>
        refine List.pairwise_cons.2 ⟨?_, h⟩
        intro entry hm
        rcases List.mem_cons.1 hm with rfl | hm
        · exact hlt
        · exact Path.lt_trans hlt (he.1 entry hm)
      · next hs hlt =>
        exact List.pairwise_cons.2 ⟨place_fst he.1 (Path.lt_of_not_same hs hlt), ih he.2⟩

theorem change_ordered {path : Path} {f : MemoryFile → MemoryFile} {files : Files}
    (h : Ordered files) : Ordered (change path f files) := by
  refine List.Pairwise.map _ ?_ h
  intro a b hab
  split <;> split <;> exact hab

end Memory

/-- A file system in memory. -/
structure Memory where
  files : Memory.Files := []
  ordered : Memory.Ordered files := by simp

namespace Memory

/-- No files. -/
def empty : Memory := {}

/-! ## Changes -/

/-- Adds a file or replaces it. -/
def add (m : Memory) (path : Path) (content : Bytes) (modified : FileTime) : Memory :=
  ⟨place path ⟨content, modified, true⟩ m.files, place_ordered m.ordered⟩

/-- Changes the time of a file, if it is there. -/
def touch (m : Memory) (path : Path) (modified : FileTime) : Memory :=
  ⟨change path ({ · with modified }) m.files, change_ordered m.ordered⟩

/-- Makes a file unreadable, if it is there. -/
def deny (m : Memory) (path : Path) : Memory :=
  ⟨change path ({ · with readable := false }) m.files, change_ordered m.ordered⟩

/-- Takes a file away, if it is there. -/
def remove (m : Memory) (path : Path) : Memory :=
  ⟨m.files.filter fun entry => !path.same entry.1, m.ordered.filter _⟩

/-! ## Questions -/

/-- The file under a path. -/
def file? (m : Memory) (path : Path) : Option MemoryFile :=
  (m.files.find? fun entry => path.same entry.1).map (·.2)

/-- The content of a file, if it may be read. -/
def read (m : Memory) (path : Path) : Except IoFault Bytes :=
  match m.file? path with
  | some file => if file.readable then .ok file.content else .error .denied
  | none => .error (.missing path)

/-- The time of a file. -/
def modified (m : Memory) (path : Path) : Except IoFault FileTime :=
  match m.file? path with
  | some file => .ok file.modified
  | none => .error (.missing path)

/-- Does some file lie below the path? -/
def isDirectory (m : Memory) (path : Path) : Bool :=
  m.files.any fun (file, _) => !path.same file && file.startsWith path

/-- Is there a file or directory? -/
def contains (m : Memory) (path : Path) : Bool := (m.file? path).isSome || m.isDirectory path

/-- The directories strictly between a directory and a path below it. -/
def between (root path : Path) : List Path :=
  (List.range' (root.parts.length + 1) (path.parts.length - (root.parts.length + 1))).map
    fun n => .ofParts (path.parts.take n)

/-- The files below `root`, in order, that no directory on the way forbids. -/
def walk (m : Memory) (root : Path) (skip : Path → Bool) : List Path :=
  (m.files.map (·.1)).filter fun path =>
    path.startsWith root && !(between root path).any skip

/-- The files as a file system. -/
def fileSystem (m : Memory) : FileSystem where
  read := m.read
  modified := m.modified
  contains := m.contains
  isDirectory := m.isDirectory
  walk := m.walk

end Memory

end ElmIntake
