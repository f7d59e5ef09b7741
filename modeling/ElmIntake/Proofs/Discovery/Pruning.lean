import ElmIntake.Discovery
import ElmIntake.FileSystem.Memory
import ElmIntake.Proofs.Path.Parts

/-! # Pruning hides no source

    A walk does not enter directories that hold no sources, and of the files that
    it finds only those are taken that are sources by themselves. The two tests
    are made of different paths: the first one of a directory on the way, the
    second one of the file as seen from the project root. They agree because the
    first parts of a file, as seen from the root, are those of a directory on the
    way to it (`seenParts_isPrefix`). Only above the project root would that be
    wrong, since there a directory is seen by its own path.

    Main statement: `Scan.ofEntry_isComplete`. -/

namespace ElmIntake

/-! ## Paths as seen from the project root -/

namespace Path

/-- Does the path lie below the directory `dir`? -/
def IsBelow (p dir : Path) : Prop := dir.parts <+: p.parts ∧ dir.parts ≠ p.parts

theorem same_of_parts {p q : Path} (h : p.parts = q.parts) : p.same q = true := same_iff.2 h

/-- Paths that share some first parts are ordered by what follows these. -/
theorem lt_of_append_lt {common parts parts' : List PathPart}
    (h : common ++ parts < common ++ parts') : parts < parts' := by
  induction common with
  | nil => exact h
  | cons part common ih =>
    apply ih
    rcases List.cons_lt_cons_iff.1 h with hlt | ⟨-, hlt⟩
    · exact absurd hlt (PathPart.lt_irrefl part)
    · exact hlt

end Path

namespace SourceFilter

variable {f : SourceFilter} {p q dir place : Path}

/-- What the parts of a path become as seen from the project root. -/
def seenParts (f : SourceFilter) (parts : List PathPart) : List PathPart :=
  (if f.projectRoot.parts <+: parts then parts.drop f.projectRoot.parts.length
    else parts).filter (· != .here)

theorem relative_eq (f : SourceFilter) (p : Path) :
    f.relative p = .ofParts (f.seenParts p.parts) := by
  unfold relative seenParts
  cases hbelow : p.below? f.projectRoot with
  | some rest =>
    obtain ⟨hstart, hrest⟩ := Path.parts_of_below? hbelow
    rw [if_pos hstart, ← hrest]
    rfl
  | none =>
    have hnot : ¬ f.projectRoot.parts <+: p.parts := by
      intro hstart
      rw [Path.below?, if_pos (Path.startsWith_iff.2 hstart)] at hbelow
      cases hbelow
    rw [if_neg hnot]
    rfl

theorem parts_relative (f : SourceFilter) (p : Path) :
    (f.relative p).parts = f.seenParts p.parts := by
  rw [relative_eq]
  apply Path.parts_ofParts
  apply IsPathParts.withoutDots
  split
  · exact p.isPathParts_parts.drop _
  · exact p.isPathParts_parts

/-- How a path is seen hangs on its parts alone. -/
theorem relative_of_same (h : p.same q = true) : f.relative p = f.relative q := by
  rw [relative_eq, relative_eq, Path.same_iff.1 h]

/-! ## Directories on the way -/

/-- A place that is not above the project root lies inside it with all that is
    below, or outside. -/
theorem root_isPrefix_of_not_isBelow (hplace : ¬ f.projectRoot.IsBelow place)
    (hdir : place.parts <+: dir.parts) (hp : dir.parts <+: p.parts)
    (hroot : f.projectRoot.parts <+: p.parts) : f.projectRoot.parts <+: dir.parts := by
  rcases List.prefix_or_prefix_of_prefix hroot (hdir.trans hp) with h | h
  · exact h.trans hdir
  · have heq : place.parts = f.projectRoot.parts := by
      by_contra hne
      exact hplace ⟨h, hne⟩
    exact heq ▸ hdir

/-- **A directory on the way to a file is seen by the first parts of the file.** -/
theorem seenParts_isPrefix (hplace : ¬ f.projectRoot.IsBelow place)
    (hdir : place.parts <+: dir.parts) (hp : dir.parts <+: p.parts) :
    f.seenParts dir.parts <+: f.seenParts p.parts := by
  unfold seenParts
  apply List.IsPrefix.filter
  by_cases hroot : f.projectRoot.parts <+: p.parts
  · rw [if_pos hroot, if_pos (root_isPrefix_of_not_isBelow hplace hdir hp hroot)]
    exact hp.drop _
  · have hnot : ¬ f.projectRoot.parts <+: dir.parts := fun h => hroot (h.trans hp)
    rw [if_neg hroot, if_neg hnot]
    exact hp

theorem names_subset (h : (f.relative dir).parts <+: (f.relative p).parts) :
    (f.relative dir).names ⊆ (f.relative p).names :=
  (List.IsPrefix.filterMap _ h).subset

/-- No source lies in a directory that is not entered. -/
theorem excludesDir_of_accepts (h : (f.relative dir).parts <+: (f.relative p).parts)
    (haccepts : f.accepts (f.relative p) = true) : f.excludesDir dir = false := by
  simp only [accepts, Bool.and_eq_true, Bool.not_eq_true'] at haccepts
  obtain ⟨⟨⟨-, hname⟩, hignored⟩, -⟩ := haccepts
  unfold excludesDir
  rw [Bool.or_eq_false_iff]
  constructor
  · unfold Path.hasExcludedName at hname ⊢
    rw [List.any_eq_false] at hname ⊢
    intro name hmem
    exact hname name (names_subset h hmem)
  · unfold ignoresDir at hignored ⊢
    rw [List.any_eq_false] at hignored ⊢
    intro ignored hmem hstarts
    apply hignored ignored hmem
    exact Path.startsWith_iff.2 ((Path.startsWith_iff.1 hstarts).trans h)

end SourceFilter

namespace Memory

variable {m : Memory} {root p dir : Path}

/-- The paths of all files. -/
def paths (m : Memory) : List Path := m.files.map (·.1)

theorem pairwise_paths (m : Memory) : m.paths.Pairwise (· < ·) :=
  List.Pairwise.map _ (fun _ _ h => h) m.ordered

/-- Is no path that of a file and that of a directory? -/
def IsTree (m : Memory) : Prop := ∀ p ∈ m.paths, m.isDirectory p = false

theorem parts_of_mem_between (h : dir ∈ between root p) :
    ∃ n, root.parts.length < n ∧ dir.parts = p.parts.take n := by
  unfold between at h
  obtain ⟨n, hn, rfl⟩ := List.mem_map.1 h
  refine ⟨n, ?_, Path.parts_ofParts (p.isPathParts_parts.take n)⟩
  have hle := (List.mem_range'_1.1 hn).1
  omega

theorem isDirectory_congr {q : Path} (h : p.parts = q.parts) :
    m.isDirectory p = m.isDirectory q := by
  unfold isDirectory Path.same Path.startsWith
  rw [h]

theorem contains_of_same {q : Path} (hq : q ∈ m.paths) (h : p.same q = true) :
    m.contains p = true := by
  obtain ⟨entry, hentry, rfl⟩ := List.mem_map.1 hq
  have hfile : (m.files.find? fun entry => p.same entry.1).isSome = true :=
    List.find?_isSome.2 ⟨entry, hentry, h⟩
  unfold contains file?
  rw [Option.isSome_map, hfile]
  rfl

/-- In a tree the files that start with a directory are those below it. -/
theorem isBelow_iff_of_isTree (htree : m.IsTree) (hdir : m.isDirectory dir = true)
    (hp : p ∈ m.paths) : p.startsWith dir = true ↔ p.IsBelow dir := by
  rw [Path.startsWith_iff]
  constructor
  · intro hstart
    refine ⟨hstart, ?_⟩
    intro heq
    rw [isDirectory_congr heq, htree p hp] at hdir
    cases hdir
  · intro hbelow
    exact hbelow.1

end Memory

/-! ## Scans -/

namespace Scan

variable {f : SourceFilter} {m : Memory} {entry p : Path}

/-- The sources below a directory, without regard to the way to them. -/
def sourcesBelow (f : SourceFilter) (m : Memory) (dir : Path) : List Path :=
  m.paths.filter fun p => p.startsWith dir && f.accepts (f.relative p)

theorem files_ofEntry_directory
    (hdir : m.isDirectory (f.projectRoot.join entry) = true) :
    (ofEntry f m.fileSystem entry).files =
      ((m.walk (f.projectRoot.join entry) f.excludesDir).map f.relative).filter f.accepts := by
  unfold ofEntry
  simp only [Memory.fileSystem, hdir, if_true]

/-- **The walk that prunes finds the same sources as one that does not.** -/
theorem files_eq_sourcesBelow (hdir : m.isDirectory (f.projectRoot.join entry) = true)
    (hplace : ¬ f.projectRoot.IsBelow (f.projectRoot.join entry)) :
    (ofEntry f m.fileSystem entry).files =
      (sourcesBelow f m (f.projectRoot.join entry)).map f.relative := by
  rw [files_ofEntry_directory hdir, List.filter_map]
  unfold Memory.walk sourcesBelow
  rw [List.filter_filter]
  apply congrArg (List.map f.relative)
  apply List.filter_congr
  intro p _
  generalize f.projectRoot.join entry = place at hplace
  cases hstarts : p.startsWith place with
  | false => simp
  | true =>
    cases haccepts : f.accepts (f.relative p) with
    | false => simp [haccepts]
    | true =>
      -- A source: none of the directories on the way keeps the walk from it.
      have hway : (Memory.between place p).any f.excludesDir = false := by
        rw [List.any_eq_false]
        intro dir hmem
        obtain ⟨n, hn, hparts⟩ := Memory.parts_of_mem_between hmem
        have hstart := Path.startsWith_iff.1 hstarts
        have htake : dir.parts <+: p.parts := hparts ▸ List.take_prefix n p.parts
        have habove : place.parts <+: dir.parts := by
          rw [hparts, List.prefix_take_iff]
          exact ⟨hstart, Nat.le_of_lt hn⟩
        have hseen : (f.relative dir).parts <+: (f.relative p).parts := by
          rw [SourceFilter.parts_relative, SourceFilter.parts_relative]
          exact SourceFilter.seenParts_isPrefix hplace habove htake
        rw [SourceFilter.excludesDir_of_accepts hseen haccepts]
        exact Bool.false_ne_true
      simp [haccepts, hway]

/-- Seen from the project root files keep their order. -/
theorem relative_lt_relative {place q : Path} (hplace : ¬ f.projectRoot.IsBelow place)
    (hne : place.parts ≠ []) (hp : place.parts <+: p.parts) (hq : place.parts <+: q.parts)
    (h : p < q) : f.relative p < f.relative q := by
  show (f.relative p).parts < (f.relative q).parts
  rw [SourceFilter.parts_relative, SourceFilter.parts_relative]
  -- Both files are seen alike: without the root, or as they are.
  have hskip : ∃ n ≤ place.parts.length, ∀ r : Path, place.parts <+: r.parts →
      f.seenParts r.parts = (r.parts.drop n).filter (· != .here) := by
    by_cases hroot : f.projectRoot.parts <+: place.parts
    · refine ⟨f.projectRoot.parts.length, hroot.length_le, ?_⟩
      intro r hr
      unfold SourceFilter.seenParts
      rw [if_pos (hroot.trans hr)]
    · refine ⟨0, Nat.zero_le _, ?_⟩
      intro r hr
      have hnot : ¬ f.projectRoot.parts <+: r.parts := by
        intro h
        exact hroot (SourceFilter.root_isPrefix_of_not_isBelow hplace (List.prefix_refl _) hr h)
      unfold SourceFilter.seenParts
      rw [if_neg hnot, List.drop_zero]
  obtain ⟨n, hn, hseen⟩ := hskip
  rw [hseen p hp, hseen q hq]
  -- Dots stand in what both paths share, if anywhere.
  have hsplit : ∀ r : Path, place.parts <+: r.parts → ∃ rest, r.parts = place.parts ++ rest ∧
      (r.parts.drop n).filter (· != .here) =
        (place.parts.drop n).filter (· != .here) ++ rest := by
    intro r hr
    obtain ⟨rest, hrest⟩ := hr
    refine ⟨rest, hrest.symm, ?_⟩
    have hinner : ∀ part ∈ rest, part.IsInner := by
      intro part hpart
      apply r.isPathParts_parts.inner part
      rw [← hrest, List.tail_append_of_ne_nil hne]
      exact List.mem_append_right _ hpart
    rw [← hrest, List.drop_append_of_le_length hn, List.filter_append,
      PathPart.filter_of_isInner hinner]
  obtain ⟨rest, hrest, hfilter⟩ := hsplit p hp
  obtain ⟨rest', hrest', hfilter'⟩ := hsplit q hq
  have hlt : place.parts ++ rest < place.parts ++ rest' := hrest ▸ hrest' ▸ h
  rw [hfilter, hfilter']
  exact List.append_left_lt (Path.lt_of_append_lt hlt)

/-- An entry that leads to a file gives that file, if it is a source. -/
theorem files_ofEntry_file (htree : m.IsTree) (hp : p ∈ m.paths)
    (hsame : (f.projectRoot.join entry).same p = true) :
    (ofEntry f m.fileSystem entry).files = [f.relative p].filter f.accepts := by
  have hdir : m.isDirectory (f.projectRoot.join entry) = false := by
    rw [Memory.isDirectory_congr (Path.same_iff.1 hsame)]
    exact htree p hp
  have hcontains := Memory.contains_of_same hp hsame
  unfold ofEntry
  simp only [Memory.fileSystem, hdir, hcontains, if_true, Bool.false_eq_true, if_false]
  rw [SourceFilter.relative_of_same hsame]

/-- **What a scan of a directory gives**: no source is lost, and none is added. -/
structure IsComplete (f : SourceFilter) (m : Memory) (entry : Path) : Prop where
  /-- The scan gives, in their order, exactly the files below the directory that
      are sources, each as it is seen from the project root. -/
  files : ∃ found : List Path, (ofEntry f m.fileSystem entry).files = found.map f.relative ∧
    found.Pairwise (· < ·) ∧ ∀ p, p ∈ found ↔
      p ∈ m.paths ∧ p.IsBelow (f.projectRoot.join entry) ∧ f.accepts (f.relative p) = true
  /-- As they are seen from the project root they are in order, too. -/
  ordered : (f.projectRoot.join entry).text ≠ "" →
    (ofEntry f m.fileSystem entry).files.Pairwise (· < ·)
  /-- A file below the directory is among them if an entry that leads to this very
      file gives it. -/
  explicit : ∀ p ∈ m.paths, p.IsBelow (f.projectRoot.join entry) →
    ∀ named : Path, (f.projectRoot.join named).same p = true →
      (f.relative p ∈ (ofEntry f m.fileSystem entry).files ↔
        (ofEntry f m.fileSystem named).files = [f.relative p])
  /-- Below an absolute root its own path is such an entry. -/
  absolute : f.projectRoot.isAbsolute = true →
    ∀ p ∈ m.paths, p.IsBelow (f.projectRoot.join entry) →
      (f.relative p ∈ (ofEntry f m.fileSystem entry).files ↔
        (ofEntry f m.fileSystem p).files = [f.relative p])

theorem filter_singleton_eq_iff {p : Path} {accepts : Path → Bool} :
    [p].filter accepts = [p] ↔ accepts p = true := by
  rw [List.filter_eq_self]
  simp

/-- What lies below a place that is seen from an absolute root is absolute. -/
theorem isAbsolute_of_isBelow (hroot : f.projectRoot.isAbsolute = true)
    (hp : p.IsBelow (f.projectRoot.join entry)) : p.isAbsolute = true := by
  have hplace := Path.isAbsolute_join hroot entry
  rw [Path.isAbsolute_eq_contains, List.contains_iff_mem] at hplace ⊢
  exact hp.1.subset hplace

/-- **Pruning hides no source.** -/
theorem ofEntry_isComplete (htree : m.IsTree)
    (hdir : m.isDirectory (f.projectRoot.join entry) = true)
    (hplace : ¬ f.projectRoot.IsBelow (f.projectRoot.join entry)) : IsComplete f m entry := by
  have hfiles := files_eq_sourcesBelow hdir hplace
  have hmem : ∀ p, p ∈ sourcesBelow f m (f.projectRoot.join entry) ↔
      p ∈ m.paths ∧ p.IsBelow (f.projectRoot.join entry) ∧ f.accepts (f.relative p) = true := by
    intro p
    unfold sourcesBelow
    rw [List.mem_filter, Bool.and_eq_true]
    constructor
    · rintro ⟨hp, hstarts, haccepts⟩
      exact ⟨hp, (Memory.isBelow_iff_of_isTree htree hdir hp).1 hstarts, haccepts⟩
    · rintro ⟨hp, hbelow, haccepts⟩
      exact ⟨hp, (Memory.isBelow_iff_of_isTree htree hdir hp).2 hbelow, haccepts⟩
  have hpairwise : (sourcesBelow f m (f.projectRoot.join entry)).Pairwise (· < ·) :=
    m.pairwise_paths.filter _
  have hexplicit : ∀ p ∈ m.paths, p.IsBelow (f.projectRoot.join entry) →
      ∀ named : Path, (f.projectRoot.join named).same p = true →
        (f.relative p ∈ (ofEntry f m.fileSystem entry).files ↔
          (ofEntry f m.fileSystem named).files = [f.relative p]) := by
    intro p hp hbelow named hsame
    rw [files_ofEntry_file htree hp hsame, filter_singleton_eq_iff, hfiles, List.mem_map]
    constructor
    · rintro ⟨q, hq, heq⟩
      rw [← heq]
      exact ((hmem q).1 hq).2.2
    · intro haccepts
      exact ⟨p, (hmem p).2 ⟨hp, hbelow, haccepts⟩, rfl⟩
  constructor
  case files => exact ⟨_, hfiles, hpairwise, hmem⟩
  case ordered =>
    intro hne
    rw [hfiles]
    refine List.pairwise_map.2 (hpairwise.imp_of_mem ?_)
    intro p q hp hq hlt
    exact relative_lt_relative hplace (fun hnil => hne (Path.text_of_parts_nil hnil))
      ((hmem p).1 hp).2.1.1 ((hmem q).1 hq).2.1.1 hlt
  case explicit => exact hexplicit
  case absolute =>
    intro hroot p hp hbelow
    have hjoin : f.projectRoot.join p = p :=
      Path.join_of_isAbsolute (isAbsolute_of_isBelow hroot hbelow)
    exact hexplicit p hp hbelow p (Path.same_of_parts (congrArg Path.parts hjoin))

end Scan

/-! ## Two trees -/

namespace Pruned

/-- Two sources, a third one among generated files and a fourth one in a
    directory of foreign files. -/
def tree : Memory :=
  Memory.empty.add ⟨"/p/src/A.elm"⟩ [] none |>.add ⟨"/p/src/Gen/B.elm"⟩ [] none
    |>.add ⟨"/p/src/Elm-Stuff/C.elm"⟩ [] none |>.add ⟨"/p/src/lib/D.elm"⟩ [] none

/-- Generated files are left out. -/
def filter : SourceFilter := .ofPatterns ⟨"/p"⟩ [⟨"./src//Gen"⟩] []

/-- The two sources are found. -/
theorem ofEntry_isComplete_pruned :
    (tree.IsTree ∧ tree.isDirectory (filter.projectRoot.join ⟨"src"⟩) = true ∧
      ¬ filter.projectRoot.IsBelow (filter.projectRoot.join ⟨"src"⟩)) ∧
    (Scan.ofEntry filter tree.fileSystem ⟨"src"⟩).files =
      [⟨"src/A.elm"⟩, ⟨"src/lib/D.elm"⟩] ∧
    Scan.IsComplete filter tree ⟨"src"⟩ := by
  have htree : tree.IsTree := by
    unfold Memory.IsTree
    decide +kernel
  have hdir : tree.isDirectory (filter.projectRoot.join ⟨"src"⟩) = true := by decide +kernel
  have hplace : ¬ filter.projectRoot.IsBelow (filter.projectRoot.join ⟨"src"⟩) := by
    unfold Path.IsBelow
    decide +kernel
  exact ⟨⟨htree, hdir, hplace⟩, by decide +kernel, Scan.ofEntry_isComplete htree hdir hplace⟩

/-- One source below a project root that is not absolute. -/
def unrooted : Memory := Memory.empty.add ⟨"p/src/A.elm"⟩ [] none

/-- Below a root that is not absolute the path of a file does not lead to it: it
    is looked for below the root once more. -/
theorem ofEntry_unrooted_own_path :
    ¬ ∀ (f : SourceFilter) (m : Memory) (entry : Path), m.IsTree →
      m.isDirectory (f.projectRoot.join entry) = true →
      ¬ f.projectRoot.IsBelow (f.projectRoot.join entry) →
      ∀ p ∈ m.paths, p.IsBelow (f.projectRoot.join entry) →
        (f.relative p ∈ (Scan.ofEntry f m.fileSystem entry).files ↔
          (Scan.ofEntry f m.fileSystem p).files = [f.relative p]) := by
  intro hexplicit
  have htree : unrooted.IsTree := by
    unfold Memory.IsTree
    decide +kernel
  have hplace : ¬ (⟨"p"⟩ : Path).IsBelow ((⟨"p"⟩ : Path).join ⟨"src"⟩) := by
    unfold Path.IsBelow
    decide +kernel
  have hbelow : (⟨"p/src/A.elm"⟩ : Path).IsBelow ((⟨"p"⟩ : Path).join ⟨"src"⟩) := by
    unfold Path.IsBelow
    decide +kernel
  have hiff := hexplicit (.ofPatterns ⟨"p"⟩ [] []) unrooted ⟨"src"⟩ htree (by decide +kernel)
    hplace ⟨"p/src/A.elm"⟩ (by decide +kernel) hbelow
  have hnone : (Scan.ofEntry (.ofPatterns ⟨"p"⟩ [] []) unrooted.fileSystem
      ⟨"p/src/A.elm"⟩).files = [] := by decide +kernel
  rw [hnone] at hiff
  exact List.cons_ne_nil _ _ (hiff.1 (by decide +kernel)).symm

end Pruned

end ElmIntake
