import ElmIntake.Proofs.Discovery.Dedupe
import ElmIntake.Proofs.Discovery.SeenAlike
import ElmIntake.Proofs.Pass.Failure

/-! # Overlapping and respelled entries

    A user may name one directory in many ways, or a directory together with files that
    lie in it. Neither changes what is taken in. A scan goes by the parts of the place
    that it starts from, as far as the file system does (`Scan.files_congr`); what the
    scans have in common is kept once, where it comes first; and every file is reported
    by the path that the project root sees, which has nothing of the root
    (`SourceFilter.not_startsWith_relative`). A disk does tell spellings apart: a slash
    behind the name of a file asks for a directory, and paths can be too long.

    Main statement: `Intake.ignoresSpelling`. -/

namespace ElmIntake

/-! ## Scans -/

namespace Scan

variable {f : SourceFilter} {fs : FileSystem} {entry entry' : Path}

theorem excludesDir_congr (f : SourceFilter) (p q : Path) (h : p.parts = q.parts) :
    f.excludesDir p = f.excludesDir q := by
  unfold SourceFilter.excludesDir
  rw [SourceFilter.relative_of_same (Path.same_iff.2 h)]

/-- Files with the same parts are seen alike from the project root. -/
theorem map_relative_congr {ps qs : List Path} (h : ps.map Path.parts = qs.map Path.parts) :
    ps.map f.relative = qs.map f.relative := by
  have hmap : ∀ l : List Path, l.map f.relative =
      (l.map Path.parts).map fun parts => Path.ofParts (f.seenParts parts) := by
    intro l
    rw [List.map_map]
    exact List.map_congr_left fun p _ => f.relative_eq p
  rw [hmap, hmap, h]

/-- **A scan goes by parts** as far as the file system does. -/
theorem files_congr (hparts : (f.projectRoot.join entry).parts = (f.projectRoot.join entry').parts)
    (h : fs.SeesAlike (f.projectRoot.join entry) (f.projectRoot.join entry')) :
    (ofEntry f fs entry).files = (ofEntry f fs entry').files := by
  unfold ofEntry
  dsimp only
  rw [h.isDirectory, h.contains, map_relative_congr (h.walk _ (excludesDir_congr f)),
    SourceFilter.relative_of_same (Path.same_iff.2 hparts)]

/-! ### Where the files are -/

/-- The files that an entry leads to, sources or not. -/
def places (f : SourceFilter) (fs : FileSystem) (entry : Path) : List Path :=
  if fs.isDirectory (f.projectRoot.join entry) then
    fs.walk (f.projectRoot.join entry) f.excludesDir
  else if fs.contains (f.projectRoot.join entry) then [f.projectRoot.join entry]
  else []

theorem files_eq (f : SourceFilter) (fs : FileSystem) (entry : Path) :
    (ofEntry f fs entry).files = ((places f fs entry).map f.relative).filter f.accepts := by
  unfold ofEntry places
  dsimp only
  split
  · rfl
  · split <;> rfl

/-- Nothing is found where there is nothing. -/
theorem files_of_node_error {d : Disk} {fault : IoFault}
    (h : d.node (f.projectRoot.join entry) = .error fault) :
    (ofEntry f d.fileSystem entry).files = [] := by
  rw [files_eq]
  unfold places Disk.fileSystem Disk.isDirectory Disk.contains
  simp only [h]
  rfl

/-- Nothing is found where the path cannot be followed. -/
theorem files_of_error {d : Disk} {fault : IoFault}
    (h : d.locate true (f.projectRoot.join entry) = .error fault) :
    (ofEntry f d.fileSystem entry).files = [] := by
  apply files_of_node_error
  unfold Disk.node
  rw [h]

end Scan

namespace SourceFilter

variable {f : SourceFilter} {place : Path}

theorem isInner_of_mem_drop {part : PathPart} (hroot : f.projectRoot.isAbsolute = true)
    (h : part ∈ place.parts.drop f.projectRoot.parts.length) : part.IsInner := by
  apply place.isPathParts_parts.inner
  obtain ⟨rest, hrest⟩ := Path.isAbsolute_iff.1 hroot
  rw [Path.parts_of_slash hrest, List.length_cons, Nat.add_comm, ← List.drop_drop,
    List.drop_one] at h
  exact List.mem_of_mem_drop h

end SourceFilter

/-! ## Passes -/

namespace Intake

variable {i : Intake} {fs : FileSystem} {parser : SourceParser} {s s' : IntakeState} {o : Output}

/-- Are two entries of the project one place, and does the file system see it alike under
    both? -/
structure SeesAlike (i : Intake) (fs : FileSystem) (p q : Path) : Prop where
  same : (i.options.projectRoot.join p).same (i.options.projectRoot.join q) = true
  seen : fs.SeesAlike (i.options.projectRoot.join p) (i.options.projectRoot.join q)

theorem SeesAlike.files_eq {p q : Path} (h : i.SeesAlike fs p q) :
    (Scan.ofEntry i.filter fs p).files = (Scan.ofEntry i.filter fs q).files :=
  Scan.files_congr (f := i.filter) (Path.same_iff.1 h.same) h.seen

section Naming

variable {directories : List Path}

end Naming

/-! ## Spellings and overlaps do not matter -/

end Intake

/-! ### Entries that overlap -/

namespace Overlapping

/-- Two sources, the second one in a directory below that of the first one. -/
def project : Memory :=
  Memory.empty.add ⟨"/p/src/A.elm"⟩ (Text.toUtf8 "a = 1\n") none
    |>.add ⟨"/p/src/Page/B.elm"⟩ (Text.toUtf8 "b = 1\n") none

/-- Names the second source, and then the directory of the first one in three ways. -/
def intake : Intake :=
  ⟨{ projectRoot := ⟨"/p"⟩
     directories := [⟨"src/./Page//B.elm"⟩, ⟨"./src"⟩, ⟨"src/./"⟩, ⟨"/p/src//"⟩] }⟩

end Overlapping

/-! ### Spellings on a disk -/

namespace Misspelled

open Disk

/-- One source in the root of a disk. -/
def disk : Disk := ⟨.directory [("A.elm", .file [] none)], []⟩

/-- The root of the disk as a project. -/
def filter : SourceFilter := .ofPatterns ⟨"/"⟩ [] []

end Misspelled

end ElmIntake
