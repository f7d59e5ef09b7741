import ElmIntake.CommandLine.Watched
import ElmIntake.Proofs.Discovery.Pruning
import ElmIntake.Proofs.Pass.Run

/-! # What is watched of a project

    Two tests decide on files, and neither knows of the other. The filter of
    sources looks at a path as it is seen from the project root; the test of
    changes looks at the whole path. What the second one asks of a source follows
    from what the first one asked, as far as the path goes below the root
    (`isWatched_join`). So a source is watched unless the root itself lies among
    generated files, and then none of the sources below it is. The manifest is
    watched under its own name only, wherever the options say that it is. -/

namespace ElmIntake

/-! ## Paths -/

namespace Path

variable {root path : Path}

theorem names_of_text_eq (h : root.text = "") : root.names = [] := by
  have hroot : root = ⟨""⟩ := by
    cases root
    exact congrArg Path.mk h
  rw [hroot]
  rfl

/-- A dot is no name. -/
theorem filterMap_names_filter (parts : List PathPart) (f : PathPart → Option String)
    (hhere : f .here = none) : (parts.filter (· != .here)).filterMap f = parts.filterMap f := by
  rw [List.filterMap_filter]
  apply List.filterMap_congr
  intro part _
  cases part <;> simp [hhere]

/-- The names of a joined path are those of the root, and then those of the
    path. -/
theorem names_join (h : path.isAbsolute = false) :
    (root.join path).names = root.names ++ path.names := by
  by_cases hroot : root.text = ""
  · have hjoin : root.join path = path := by
      unfold join
      rw [h, if_neg Bool.false_ne_true, if_pos hroot]
    rw [hjoin, names_of_text_eq hroot, List.nil_append]
  · unfold names
    rw [parts_join hroot h, List.filterMap_append]
    congr 1
    exact filterMap_names_filter _ _ rfl

theorem fileName_eq_some_iff {name : String} :
    path.fileName = some name ↔ path.parts.getLast? = some (.name name) := by
  unfold fileName
  cases hlast : path.parts.getLast? with
  | none => simp
  | some part => cases part <;> simp

/-- The file's name does not hang on the directory that the path is seen from. -/
theorem fileName_join {name : String} (h : path.isAbsolute = false)
    (hname : path.fileName = some name) : (root.join path).fileName = some name := by
  by_cases hroot : root.text = ""
  · have hjoin : root.join path = path := by
      unfold join
      rw [h, if_neg Bool.false_ne_true, if_pos hroot]
    rwa [hjoin]
  · rw [fileName_eq_some_iff] at hname ⊢
    obtain ⟨start, hstart⟩ := List.getLast?_eq_some_iff.1 hname
    rw [parts_join hroot h, hstart, List.filter_append, ← List.append_assoc]
    exact List.getLast?_concat

theorem hasSourceExtension_congr {p q : Path} (h : p.fileName = q.fileName) :
    p.hasSourceExtension = q.hasSourceExtension := by
  unfold hasSourceExtension extension
  rw [h]

theorem fileName_of_hasSourceExtension (h : path.hasSourceExtension = true) :
    ∃ name, path.fileName = some name := by
  unfold hasSourceExtension extension at h
  cases hname : path.fileName with
  | none => simp [hname] at h
  | some name => exact ⟨name, rfl⟩

end Path

namespace CommandLine

variable {root path : Path}

theorem generatedName_notMem_of_hasExcludedName (h : path.hasExcludedName = false) :
    generatedName ∉ path.names := by
  intro hmem
  unfold Path.hasExcludedName at h
  rw [List.any_eq_false] at h
  exact h generatedName hmem (by decide)

theorem isWatched_iff {path : Path} :
    isWatched path = true ↔ generatedName ∉ path.names ∧
      (path.hasSourceExtension = true ∨ path.fileName = some Options.manifestName) := by
  simp [isWatched]

/-- **The test of changes on a path that is seen from a root.** Of a source below
    the root nothing more is asked; what is left are the names of the root. -/
theorem isWatched_join (h : path.isAbsolute = false) (hnames : generatedName ∉ path.names)
    (hkind : path.hasSourceExtension = true ∨ path.fileName = some Options.manifestName) :
    isWatched (root.join path) = true ↔ generatedName ∉ root.names := by
  obtain ⟨name, hname⟩ : ∃ name, path.fileName = some name := by
    rcases hkind with hsource | hmanifest
    · exact Path.fileName_of_hasSourceExtension hsource
    · exact ⟨_, hmanifest⟩
  have hlast : (root.join path).fileName = path.fileName :=
    (Path.fileName_join h hname).trans hname.symm
  rw [isWatched_iff, Path.names_join h, Path.hasSourceExtension_congr hlast, hlast]
  simp [hnames, hkind]

end CommandLine

/-! ## Sources and the manifest -/

namespace Scan

theorem mem_of_mem_distinct {path : Path} {seen : List (List PathPart)} {paths : List Path}
    (h : path ∈ distinct seen paths) : path ∈ paths := by
  induction paths generalizing seen with
  | nil => exact h
  | cons first rest ih =>
    unfold distinct at h
    dsimp only at h
    split at h
    · exact List.mem_cons_of_mem _ (ih h)
    · rcases List.mem_cons.1 h with rfl | h
      · exact List.mem_cons_self
      · exact List.mem_cons_of_mem _ (ih h)

end Scan

/-- A source is reported under the path that it was looked for at. -/
theorem Oracle.path_of_observe {oracle : Oracle} {fs : FileSystem} {root path : Path}
    {looked : Observed} (h : oracle.observe fs root path = .ok looked) :
    looked.file.path = path := by
  obtain ⟨modified, -, ⟨e, -, rfl⟩ | ⟨-, content, -, rfl⟩⟩ := observe_cases h
  · rfl
  · rfl

namespace Intake

open CommandLine

variable {i : Intake} {fs : FileSystem} {parser : SourceParser} {s : IntakeState} {o : Output}

/-- Every source has passed the filter. -/
theorem accepts_of_mem_sources {paths : List Path} {path : Path} (h : i.sources fs = .ok paths)
    (hmem : path ∈ paths) : i.filter.accepts path = true := by
  unfold sources at h
  split at h
  · cases h
  · dsimp only at h
    split at h
    · cases h
    · cases h
      obtain ⟨scan, hscan, hfile⟩ := List.mem_flatMap.1 (Scan.mem_of_mem_distinct hmem)
      obtain ⟨entry, -, rfl⟩ := List.mem_map.1 hscan
      exact (List.mem_filter.1 hfile).2

/-- So has every file that a pass gives. -/
theorem accepts_of_mem_files {file : IngestedFile} (h : (i.run fs parser s).1 = .ok o)
    (hmem : file ∈ o.files) : i.filter.accepts file.path = true := by
  obtain ⟨paths, observed, hsources, hobserved, rfl, -, -⟩ := run_cases (Prod.ext h rfl)
  obtain ⟨looked, hlooked, rfl⟩ := List.mem_map.1 hmem
  obtain ⟨path, hpath, hobserve⟩ := Oracle.exists_of_mem_observeAll hobserved hlooked
  show i.filter.accepts looked.file.path = true
  rw [Oracle.path_of_observe hobserve]
  exact accepts_of_mem_sources hsources hpath

/-- **What is watched of what a pass depends on.** -/
structure Watches (i : Intake) (o : Output) : Prop where
  /-- A source is watched if it lies outside the project, or the project does not
      lie among generated files. -/
  sources : ∀ file ∈ o.files, isWatched (i.options.projectRoot.join file.path) = true ↔
    file.path.isAbsolute = true ∨ generatedName ∉ i.options.projectRoot.names
  /-- The manifest at its usual place is watched together with the sources. -/
  manifest : i.options.manifestPath = none →
    (isWatched i.options.manifest = true ↔ generatedName ∉ i.options.projectRoot.names)
  /-- A manifest at another place is not, unless it bears a name that is watched. -/
  named : ∀ path, i.options.manifestPath = some path → path.hasSourceExtension = false →
    path.fileName ≠ some Options.manifestName → isWatched i.options.manifest = false

theorem watches_of_run (h : (i.run fs parser s).1 = .ok o) : i.Watches o where
  sources := by
    intro file hmem
    have haccepts := accepts_of_mem_files h hmem
    simp only [SourceFilter.accepts, Bool.and_eq_true, Bool.not_eq_true'] at haccepts
    obtain ⟨⟨⟨hsource, hexcluded⟩, -⟩, -⟩ := haccepts
    have hnames := generatedName_notMem_of_hasExcludedName hexcluded
    cases habsolute : file.path.isAbsolute with
    | true =>
      rw [Path.join_of_isAbsolute habsolute, isWatched_iff]
      simp [hnames, hsource]
    | false =>
      rw [isWatched_join habsolute hnames (.inl hsource)]
      simp
  manifest := by
    intro hnone
    have hplace : i.options.manifest =
        i.options.projectRoot.join ⟨Options.manifestName⟩ := by
      unfold Options.manifest
      rw [hnone]
      rfl
    rw [hplace]
    exact isWatched_join (by decide) (by decide) (.inr (by decide))
  named := by
    intro path hsome hsource hname
    have hplace : i.options.manifest = path := by
      unfold Options.manifest
      rw [hsome]
      rfl
    simp [hplace, isWatched, hsource, hname]

end Intake

/-! ### Projects that are not watched -/

namespace Unwatched

/-- A project among the generated files of another one, and one with a manifest
    of a name of its own. -/
def tree : Memory :=
  Memory.empty.add ⟨"/work/elm-stuff/app/src/A.elm"⟩ (Text.toUtf8 "module A exposing (..)\n") none
    |>.add ⟨"/p/src/B.elm"⟩ (Text.toUtf8 "module B exposing (..)\n") none
    |>.add ⟨"/p/project.json"⟩ (Text.toUtf8 "\x7b\"type\": \"package\"\x7d") none

/-- Takes in the first project. -/
def generated : Intake :=
  ⟨{ projectRoot := ⟨"/work/elm-stuff/app"⟩, directories := [⟨"src"⟩], watch := true }⟩

/-- Takes in the second one. -/
def renamed : Intake :=
  ⟨{ projectRoot := ⟨"/p"⟩, manifestPath := some ⟨"/p/project.json"⟩, watch := true }⟩

/-- The files that an intake gives. -/
def paths (i : Intake) : Except IngestError (List Path) :=
  (i.run tree.fileSystem .elm {}).1.map fun o => o.files.map (·.path)

theorem exists_run (i : Intake) (found : List Path) (h : paths i = .ok found) :
    ∃ o, (i.run tree.fileSystem .elm {}).1 = .ok o ∧ o.files.map (·.path) = found := by
  unfold paths at h
  cases hrun : (i.run tree.fileSystem .elm {}).1 with
  | error e =>
    rw [hrun] at h
    cases h
  | ok o =>
    rw [hrun] at h
    exact ⟨o, rfl, Except.ok.inj h⟩

/-- Both projects are taken in: the source of the first one is not watched, and of
    the second one the manifest is not. -/
theorem watches_of_run_unwatched :
    (∃ o, (generated.run tree.fileSystem .elm {}).1 = .ok o ∧
      o.files.map (·.path) = [⟨"src/A.elm"⟩] ∧
      CommandLine.isWatched ⟨"/work/elm-stuff/app/src/A.elm"⟩ = false ∧ generated.Watches o) ∧
    ∃ o, (renamed.run tree.fileSystem .elm {}).1 = .ok o ∧
      o.files.map (·.path) = [⟨"src/B.elm"⟩] ∧
      CommandLine.isWatched ⟨"/p/project.json"⟩ = false ∧ renamed.Watches o := by
  obtain ⟨o, hrun, hfiles⟩ := exists_run generated [⟨"src/A.elm"⟩] (by decide +kernel)
  obtain ⟨o', hrun', hfiles'⟩ := exists_run renamed [⟨"src/B.elm"⟩] (by decide +kernel)
  exact ⟨⟨o, hrun, hfiles, by decide +kernel, Intake.watches_of_run hrun⟩,
    o', hrun', hfiles', by decide +kernel, Intake.watches_of_run hrun'⟩

/-- A source that a pass gives may change unseen, and so may the manifest that it
    used. -/
theorem changes_unseen :
    (¬ ∀ (i : Intake) (fs : FileSystem) (parser : SourceParser) (s : IntakeState) (o : Output),
      (i.run fs parser s).1 = .ok o → ∀ file ∈ o.files,
        CommandLine.isWatched (i.options.projectRoot.join file.path) = true) ∧
    ¬ ∀ (i : Intake) (fs : FileSystem) (parser : SourceParser) (s : IntakeState) (o : Output),
      (i.run fs parser s).1 = .ok o → i.options.directories = [] →
        CommandLine.isWatched i.options.manifest = true := by
  constructor
  · intro hsources
    obtain ⟨o, hrun, hfiles⟩ := exists_run generated [⟨"src/A.elm"⟩] (by decide +kernel)
    have hmem : (⟨"src/A.elm"⟩ : Path) ∈ o.files.map (·.path) := by
      rw [hfiles]
      exact List.mem_cons_self
    obtain ⟨file, hfile, hpath⟩ := List.mem_map.1 hmem
    have hwatched := hsources generated tree.fileSystem .elm {} o hrun file hfile
    rw [hpath] at hwatched
    revert hwatched
    decide +kernel
  · intro hmanifest
    obtain ⟨o, hrun, -⟩ := exists_run renamed [⟨"src/B.elm"⟩] (by decide +kernel)
    have hwatched := hmanifest renamed tree.fileSystem .elm {} o hrun rfl
    revert hwatched
    decide +kernel

end Unwatched

end ElmIntake
