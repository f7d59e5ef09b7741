import ElmIntake.FileSystem.Memory
import ElmIntake.Proofs.Pass.Run

/-! # Passes that fail

    A pass can fail for three reasons: its manifest cannot be used, a place that
    was asked for holds no sources, or a source cannot be looked at. Whichever it
    is, and however much of the project was looked at before, the pass leaves both
    caches, the counts of the pool and its workers as they were.

    The proof goes through the pass once, in `run_error_cases`. The pool is
    prepared before the first source is looked at, so a pass that fails over a
    source has to release it; a pool that had no workers is then what it was. -/

namespace ElmIntake

/-! ## Errors -/

/-- The errors over a manifest. -/
inductive IngestError.IsOfManifest : IngestError → Prop where
  | notFound (path : Path) : IsOfManifest (.manifestNotFound path)
  | invalid (path : Path) (message : String) : IsOfManifest (.manifestInvalid path message)

/-- The errors that can end a pass. -/
inductive IngestError.EndsPass : IngestError → Prop where
  | manifest {e : IngestError} : e.IsOfManifest → EndsPass e
  | noFilesFound (directories : List Path) : EndsPass (.noFilesFound directories)
  | fileRead (path : Path) (fault : IoFault) : EndsPass (.fileRead path fault)

theorem Manifest.isOfManifest_of_load {fs : FileSystem} {path : Path} {e : IngestError}
    (h : load fs path = .error e) : e.IsOfManifest := by
  unfold load at h
  split at h
  · cases h
    exact .notFound path
  split at h
  · -- The file is there and cannot be read.
    split at h
    · cases h
      exact .notFound path
    · cases h
      exact .invalid path _
  · next content _ =>
    cases hmanifest : ofJson content with
    | ok m =>
      rw [hmanifest] at h
      cases h
    | error fault =>
      rw [hmanifest] at h
      cases h
      exact .invalid path _

namespace Oracle

variable {oracle : Oracle} {fs : FileSystem} {root path : Path} {e : IngestError}

theorem endsPass_of_observe (h : oracle.observe fs root path = .error e) :
    ∃ fault, e = .fileRead path fault := by
  unfold observe at h
  dsimp only at h
  split at h
  · next fault _ =>
    cases h
    exact ⟨fault, rfl⟩
  split at h
  · cases h
  split at h
  · next fault _ =>
    cases h
    exact ⟨fault, rfl⟩
  · cases h

/-- The first source that cannot be looked at is named. -/
theorem endsPass_of_observeAll {paths : List Path}
    (h : oracle.observeAll fs root paths = .error e) :
    ∃ path ∈ paths, ∃ fault, e = .fileRead path fault := by
  induction paths with
  | nil => cases h
  | cons path paths ih =>
    unfold observeAll at h
    split at h
    · next hobserve =>
      cases h
      obtain ⟨fault, rfl⟩ := endsPass_of_observe hobserve
      exact ⟨path, List.mem_cons_self, fault, rfl⟩
    · cases hrest : oracle.observeAll fs root paths with
      | ok os =>
        rw [hrest] at h
        cases h
      | error e' =>
        rw [hrest] at h
        cases h
        obtain ⟨other, hother, fault, rfl⟩ := ih hrest
        exact ⟨other, List.mem_cons_of_mem _ hother, fault, rfl⟩

end Oracle

namespace Intake

variable {i : Intake} {fs fs' : FileSystem} {parser : SourceParser} {s s' : IntakeState}
  {e : IngestError} {directories : List Path}

/-! ## Finding the sources -/

/-- The entries that the user named and that stand for no source, in the order in
    which they were named. -/
def emptyEntries (i : Intake) (fs : FileSystem) : List Path :=
  i.options.directories.filter fun entry => (Scan.ofEntry i.filter fs entry).files.isEmpty

theorem emptyEntries_ne_nil_iff :
    i.emptyEntries fs ≠ [] ↔
      ∃ entry ∈ i.options.directories, (Scan.ofEntry i.filter fs entry).files = [] := by
  unfold emptyEntries
  rw [Ne, List.filter_eq_nil_iff]
  simp

theorem named_of_emptyEntries (h : i.emptyEntries fs ≠ []) : i.options.directories ≠ [] := by
  intro hnone
  apply h
  unfold emptyEntries
  rw [hnone]
  rfl

/-- Named entries are scanned, and each of them has to have sources. -/
theorem sources_of_named (hnamed : i.options.directories ≠ []) :
    i.sources fs =
      if i.emptyEntries fs ≠ [] then .error (.noFilesFound (i.emptyEntries fs))
      else .ok (Scan.dedupe (i.options.directories.map (Scan.ofEntry i.filter fs))) := by
  have hempty : ((i.options.directories.map (Scan.ofEntry i.filter fs)).filter
      (·.files.isEmpty)).map (·.directory) = i.emptyEntries fs := by
    rw [List.filter_map, List.map_map]
    exact List.map_id _
  unfold sources entries
  rw [if_pos hnamed]
  dsimp only
  rw [hempty]
  simp only [hnamed, ne_eq, not_false_eq_true, true_and]

/-- Without named entries only the manifest can be at fault. -/
theorem isOfManifest_of_sources (hnone : i.options.directories = [])
    (h : i.sources fs = .error e) : e.IsOfManifest := by
  unfold sources entries at h
  rw [if_neg (not_not_intro hnone)] at h
  cases hload : Manifest.load fs i.options.manifest with
  | ok m =>
    rw [hload] at h
    simp [Except.map, hnone] at h
  | error e' =>
    rw [hload] at h
    cases h
    exact Manifest.isOfManifest_of_load hload

/-- The sources cannot be found for one of two reasons. -/
theorem sources_error_cases (h : i.sources fs = .error e) :
    i.options.directories = [] ∧ e.IsOfManifest ∨
      i.emptyEntries fs ≠ [] ∧ e = .noFilesFound (i.emptyEntries fs) := by
  by_cases hnamed : i.options.directories = []
  · exact .inl ⟨hnamed, isOfManifest_of_sources hnamed h⟩
  · rw [sources_of_named hnamed] at h
    split at h
    · next hempty =>
      cases h
      exact .inr ⟨hempty, rfl⟩
    · cases h

/-- Scanning asks where files and directories are, and nothing else. -/
theorem ofEntry_congr (hcontains : fs'.contains = fs.contains)
    (hdirectory : fs'.isDirectory = fs.isDirectory) (hwalk : fs'.walk = fs.walk)
    (filter : SourceFilter) (entry : Path) :
    Scan.ofEntry filter fs' entry = Scan.ofEntry filter fs entry := by
  unfold Scan.ofEntry
  rw [hcontains, hdirectory, hwalk]

/-! ## The pass -/

/-- **The two places where a pass can fail.** What it has done by then is undone,
    the workers included. -/
theorem run_error_cases (h : i.run fs parser s = (.error e, s')) :
    i.sources fs = .error e ∧ s' = s ∨
      ∃ paths, i.sources fs = .ok paths ∧
        (i.oracle s).observeAll fs i.options.projectRoot paths = .error e ∧
        s' = { s with pool := s.pool.terminate } := by
  rw [run_eq] at h
  cases hsources : i.sources fs with
  | error found =>
    simp only [hsources, Prod.mk.injEq, Except.error.injEq] at h
    obtain ⟨rfl, rfl⟩ := h
    exact .inl ⟨rfl, rfl⟩
  | ok paths =>
    cases hobserved : (i.oracle s).observeAll fs i.options.projectRoot paths with
    | error found =>
      simp only [hsources, hobserved, Prod.mk.injEq, Except.error.injEq] at h
      obtain ⟨rfl, rfl⟩ := h
      exact .inr ⟨paths, rfl, hobserved, rfl⟩
    | ok observed => simp [hsources, hobserved] at h

/-- Whether a pass fails, and with what, has nothing to do with the parser. -/
theorem run_error_congr (h : i.run fs parser s = (.error e, s')) (other : SourceParser) :
    i.run fs other s = (.error e, s') := by
  rw [run_eq]
  obtain ⟨hsources, rfl⟩ | ⟨paths, hsources, hobserved, rfl⟩ := run_error_cases h
  · rw [hsources]
  · simp only [hsources, hobserved]

theorem terminate_of_unprepared {pool : Pool} (h : pool.prepared = false) :
    pool.terminate = pool := by
  cases pool
  cases h
  rfl

theorem endsPass_of_run (h : i.run fs parser s = (.error e, s')) : e.EndsPass := by
  obtain ⟨hsources, -⟩ | ⟨paths, -, hobserved, -⟩ := run_error_cases h
  · obtain ⟨-, hmanifest⟩ | ⟨-, rfl⟩ := sources_error_cases hsources
    · exact .manifest hmanifest
    · exact .noFilesFound _
  · obtain ⟨path, -, fault, rfl⟩ := Oracle.endsPass_of_observeAll hobserved
    exact .fileRead path fault

/-- A lack of sources is reported over the entries that are empty, all of them, and
    whenever there are some. -/
theorem run_noFilesFound_iff :
    (i.run fs parser s).1 = .error (.noFilesFound directories) ↔
      i.emptyEntries fs ≠ [] ∧ directories = i.emptyEntries fs := by
  constructor
  · intro h
    have hrun : i.run fs parser s = (.error (.noFilesFound directories), (i.run fs parser s).2) :=
      Prod.ext h rfl
    obtain ⟨hsources, -⟩ | ⟨paths, -, hobserved, -⟩ := run_error_cases hrun
    · obtain ⟨-, hmanifest⟩ | ⟨hempty, heq⟩ := sources_error_cases hsources
      · cases hmanifest
      · exact ⟨hempty, IngestError.noFilesFound.inj heq⟩
    · obtain ⟨path, -, fault, heq⟩ := Oracle.endsPass_of_observeAll hobserved
      cases heq
  · rintro ⟨hempty, rfl⟩
    rw [run_eq, sources_of_named (named_of_emptyEntries hempty), if_pos hempty]

/-- Once there are empty entries, no file of the project makes a difference. -/
theorem run_of_emptyEntries (hempty : i.emptyEntries fs ≠ [])
    (hcontains : fs'.contains = fs.contains) (hdirectory : fs'.isDirectory = fs.isDirectory)
    (hwalk : fs'.walk = fs.walk) : i.run fs' parser s = i.run fs parser s := by
  have hnamed := named_of_emptyEntries hempty
  have hsame : i.emptyEntries fs' = i.emptyEntries fs := by
    unfold emptyEntries
    simp only [ofEntry_congr hcontains hdirectory hwalk]
  rw [run_eq, run_eq, sources_of_named hnamed, sources_of_named hnamed, hsame, if_pos hempty,
    if_pos hempty]

/-- **What a pass that fails leaves**, and when it fails for want of sources. -/
structure FailsCleanly (i : Intake) (fs : FileSystem) (parser : SourceParser) (s : IntakeState) :
    Prop where
  /-- Every failure is of one of three sorts. -/
  endsPass : ∀ e s', i.run fs parser s = (.error e, s') → e.EndsPass
  /-- Both caches, the counts of requests and of calls of the parser, and the pool
      are what they were. -/
  unchanged : ∀ e s', i.run fs parser s = (.error e, s') → s' = s ∧ s'.pool.prepared = false
  /-- Any other parser would have gone unasked as well. -/
  unparsed : ∀ e s', i.run fs parser s = (.error e, s') →
    ∀ other, i.run fs other s = (.error e, s')
  /-- Sources are wanting exactly if entries were named and one of them is empty. -/
  noFilesFound_iff : (∃ directories s',
      i.run fs parser s = (.error (.noFilesFound directories), s')) ↔
    i.options.directories ≠ [] ∧
      ∃ entry ∈ i.options.directories, (Scan.ofEntry i.filter fs entry).files = []
  /-- The empty entries are named, in the order of the options. -/
  noFilesFound_names : ∀ directories s',
    i.run fs parser s = (.error (.noFilesFound directories), s') →
      directories = i.options.directories.filter fun entry =>
        (Scan.ofEntry i.filter fs entry).files.isEmpty
  /-- Then no file was read, nor its time asked for: the pass would have ended in
      the same way whatever these questions were answered. -/
  noFilesFound_unread : ∀ directories s',
    i.run fs parser s = (.error (.noFilesFound directories), s') →
      ∀ fs' : FileSystem, fs'.contains = fs.contains → fs'.isDirectory = fs.isDirectory →
        fs'.walk = fs.walk → i.run fs' parser s = (.error (.noFilesFound directories), s')

/-- **A pass that fails leaves everything as it was.** -/
theorem run_failsCleanly (i : Intake) (fs : FileSystem) (parser : SourceParser) {s : IntakeState}
    (hpool : s.pool.prepared = false) : i.FailsCleanly fs parser s := by
  have hempty : ∀ {directories s'}, i.run fs parser s = (.error (.noFilesFound directories), s') →
      i.emptyEntries fs ≠ [] ∧ directories = i.emptyEntries fs := by
    intro directories s' h
    exact run_noFilesFound_iff.1 (congrArg Prod.fst h)
  constructor
  case endsPass =>
    intro e s' h
    exact endsPass_of_run h
  case unchanged =>
    intro e s' h
    have hsame : s' = s := by
      obtain ⟨-, rfl⟩ | ⟨paths, -, -, rfl⟩ := run_error_cases h
      · rfl
      · rw [terminate_of_unprepared hpool]
    exact ⟨hsame, hsame ▸ hpool⟩
  case unparsed =>
    intro e s' h other
    exact run_error_congr h other
  case noFilesFound_iff =>
    rw [← emptyEntries_ne_nil_iff]
    constructor
    · rintro ⟨directories, s', h⟩
      exact ⟨named_of_emptyEntries (hempty h).1, (hempty h).1⟩
    · rintro ⟨-, h⟩
      exact ⟨_, _, Prod.ext (run_noFilesFound_iff.2 ⟨h, rfl⟩) rfl⟩
  case noFilesFound_names =>
    intro directories s' h
    exact (hempty h).2
  case noFilesFound_unread =>
    intro directories s' h fs' hcontains hdirectory hwalk
    rw [run_of_emptyEntries (hempty h).1 hcontains hdirectory hwalk]
    exact h

end Intake

/-! ### A project with an empty directory -/

namespace Lacking

/-- A good source, one that may not be read, and nothing below `lib`. -/
def project : Memory :=
  (Memory.empty.add ⟨"/p/src/A.elm"⟩ (Text.toUtf8 "module A exposing (..)\n\na = 1\n") (some 1)
    |>.add ⟨"/p/tests/B.elm"⟩ [] (some 1)).deny ⟨"/p/tests/B.elm"⟩

/-- The intake of some directories. -/
def intake (directories : List Path) : Intake := ⟨{ projectRoot := ⟨"/p"⟩, directories }⟩

/-- A state that remembers a file and has counted requests. -/
def state : IntakeState where
  session := ⟨[⟨⟨"src/Old.elm"⟩, some 1, [], .failed []⟩]⟩
  durable := some ⟨⟨"/c"⟩, .present [("other", .other)]⟩
  pool := { dispatched := 3, calls := 2 }

/-- The second source cannot be read, after the first one was; and with empty
    directories among the entries nothing is looked at. -/
theorem run_failsCleanly_lacking :
    state.pool.prepared = false ∧
      (intake [⟨"src"⟩, ⟨"tests"⟩]).run project.fileSystem .elm state =
        (.error (.fileRead ⟨"tests/B.elm"⟩ .denied), state) ∧
      (intake [⟨"lib"⟩, ⟨"src"⟩, ⟨"docs"⟩]).run project.fileSystem .elm state =
        (.error (.noFilesFound [⟨"lib"⟩, ⟨"docs"⟩]), state) ∧
      (intake [⟨"src"⟩, ⟨"tests"⟩]).FailsCleanly project.fileSystem .elm state := by
  have hread : ((intake [⟨"src"⟩, ⟨"tests"⟩]).run project.fileSystem .elm state).1 =
      .error (.fileRead ⟨"tests/B.elm"⟩ .denied) := by decide +kernel
  have hlack : ((intake [⟨"lib"⟩, ⟨"src"⟩, ⟨"docs"⟩]).run project.fileSystem .elm state).1 =
      .error (.noFilesFound [⟨"lib"⟩, ⟨"docs"⟩]) := by decide +kernel
  have hreadClean := Intake.run_failsCleanly (intake [⟨"src"⟩, ⟨"tests"⟩]) project.fileSystem .elm
    (show state.pool.prepared = false from rfl)
  have hlackClean := Intake.run_failsCleanly (intake [⟨"lib"⟩, ⟨"src"⟩, ⟨"docs"⟩])
    project.fileSystem .elm (show state.pool.prepared = false from rfl)
  refine ⟨rfl, ?_, ?_, hreadClean⟩
  · exact Prod.ext hread (hreadClean.unchanged _ _ (Prod.ext hread rfl)).1
  · exact Prod.ext hlack (hlackClean.unchanged _ _ (Prod.ext hlack rfl)).1

end Lacking

end ElmIntake
