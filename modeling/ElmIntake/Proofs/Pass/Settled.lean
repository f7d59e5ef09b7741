import ElmIntake.FileSystem.Memory
import ElmIntake.Proofs.CommandLine.Watching
import ElmIntake.Proofs.Pass.Run

/-! # Passes settle

    A pass that succeeds leaves the session with its own files and no others
    (`Session.afterPass_eq`), each as it was reported. A pass that follows it, with the
    same options and over files that nobody has changed, finds every one of them there
    (`Oracle.observe_settled`): by its time if the first pass went by the time, or if
    the time that was recorded is known and trusted, and else by its content. So nothing
    is read by the parser, nothing is stored, and the second pass leaves exactly the
    state that it found. -/

namespace ElmIntake

/-! ## Paths of a pass -/

namespace Scan

/-- No path comes twice, however it is written. -/
theorem pairwise_distinct (seen : List (List PathPart)) (paths : List Path) :
    (distinct seen paths).Pairwise (fun p q => ¬ p.same q = true) ∧
      ∀ p ∈ distinct seen paths, p.parts ∉ seen := by
  induction paths generalizing seen with
  | nil => exact ⟨.nil, nofun⟩
  | cons first paths ih =>
    unfold distinct
    dsimp only
    split
    · exact ih seen
    · next hseen =>
      obtain ⟨hpairwise, hfresh⟩ := ih (first.parts :: seen)
      refine ⟨List.pairwise_cons.2 ⟨?_, hpairwise⟩, ?_⟩
      · intro p hp hsame
        exact hfresh p hp (Path.same_iff.1 hsame ▸ List.mem_cons_self)
      · intro p hp
        rcases List.mem_cons.1 hp with rfl | hp
        · simpa using hseen
        · exact fun hmem => hfresh p hp (List.mem_cons_of_mem _ hmem)

end Scan

theorem Intake.pairwise_sources {i : Intake} {fs : FileSystem} {paths : List Path}
    (h : i.sources fs = .ok paths) : paths.Pairwise fun p q => ¬ p.same q = true := by
  unfold sources at h
  split at h
  · cases h
  · dsimp only at h
    split at h
    · cases h
    · cases h
      exact (Scan.pairwise_distinct [] _).1

/-- Sources are looked at in their order, each under its own path. -/
theorem Oracle.paths_of_observeAll {oracle : Oracle} {fs : FileSystem} {root : Path}
    {paths : List Path} {os : List Observed} (h : oracle.observeAll fs root paths = .ok os) :
    os.map (·.file.path) = paths := by
  rw [observeAll_eq_ok_iff] at h
  induction h with
  | nil => rfl
  | cons hfirst _ ih => rw [List.map_cons, path_of_observe hfirst, ih]

/-! ## The session after a pass -/

namespace Session

/-- Files that are put in come to stand before the entries of other paths, the last
    one first. -/
theorem foldl_insert_eq {files : List IngestedFile}
    (hpaths : files.Pairwise fun a b => ¬ a.path.same b.path = true) (s : Session) :
    (files.foldl (fun s file => s.insert file.entry) s).entries =
      (files.map (·.entry)).reverse ++
        s.entries.filter fun e => !files.any fun file => file.path.same e.path := by
  induction files generalizing s with
  | nil => exact (List.filter_eq_self.2 fun _ _ => rfl).symm
  | cons first files ih =>
    obtain ⟨hfirst, hrest⟩ := List.pairwise_cons.1 hpaths
    -- No file behind the first one takes its place.
    have hkept : (!files.any fun file => file.path.same first.entry.path) = true := by
      rw [Bool.not_eq_true', List.any_eq_false]
      intro file hfile hsame
      exact hfirst file hfile (Path.same_iff.2 (Path.same_iff.1 hsame).symm)
    rw [List.foldl_cons, ih hrest]
    unfold insert
    rw [List.filter_cons, if_pos hkept, List.filter_filter, List.map_cons, List.reverse_cons,
      List.append_assoc, List.singleton_append]
    congr 2
    apply List.filter_congr
    intro e _
    rw [List.any_cons, Bool.not_or, Bool.and_comm]
    rfl

/-- **What a pass leaves in the session**: its own files, the last one first. -/
theorem afterPass_eq {files : List IngestedFile}
    (hpaths : files.Pairwise fun a b => ¬ a.path.same b.path = true) (s : Session) :
    s.afterPass files = ⟨(files.map (·.entry)).reverse⟩ := by
  have hfiles : ∀ e ∈ (files.map (·.entry)).reverse,
      (files.any fun file => e.path.same file.path) = true := by
    intro e he
    obtain ⟨file, hfile, rfl⟩ := List.mem_map.1 (List.mem_reverse.1 he)
    exact List.any_eq_true.2 ⟨file, hfile, Path.same_iff.2 rfl⟩
  have hothers : ∀ e ∈ s.entries.filter fun e => !files.any fun file => file.path.same e.path,
      ¬ (files.any fun file => e.path.same file.path) = true := by
    intro e he hany
    have hnone := (List.mem_filter.1 he).2
    rw [Bool.not_eq_true', List.any_eq_false] at hnone
    obtain ⟨file, hfile, hsame⟩ := List.any_eq_true.1 hany
    exact hnone file hfile (Path.same_iff.2 (Path.same_iff.1 hsame).symm)
  unfold afterPass retain
  rw [foldl_insert_eq hpaths, List.filter_append, List.filter_eq_self.2 hfiles,
    List.filter_eq_nil_iff.2 hothers, List.append_nil]

/-- Every file of a pass is found under its path. -/
theorem get?_afterPass {files : List IngestedFile}
    (hpaths : files.Pairwise fun a b => ¬ a.path.same b.path = true) (s : Session)
    {file : IngestedFile} (hfile : file ∈ files) :
    (s.afterPass files).get? file.path = some file.entry := by
  rw [afterPass_eq hpaths]
  unfold get?
  rw [List.find?_eq_some_iff_append]
  obtain ⟨before, after, rfl⟩ := List.append_of_mem hfile
  obtain ⟨-, hafter, hcross⟩ := List.pairwise_append.1 hpaths
  refine ⟨Path.same_iff.2 rfl, (after.map (·.entry)).reverse, (before.map (·.entry)).reverse,
    by simp, ?_⟩
  intro e he
  obtain ⟨other, hother, rfl⟩ := List.mem_map.1 (List.mem_reverse.1 he)
  have hne : file.path.same other.entry.path = false :=
    Bool.eq_false_iff.2 ((List.pairwise_cons.1 hafter).1 other hother)
  rw [hne]
  rfl

end Session

/-! ## Looking again -/

/-- The source as a later pass sees it: its outcome is in the session. -/
def Observed.settled (outcomes : List (String × Outcome)) (o : Observed) : Observed :=
  ⟨o.file, .session (o.outcome outcomes)⟩

namespace Observed

variable {outcomes : List (String × Outcome)} {os : List Observed}

theorem pending_settled (seen : List String) (outcomes : List (String × Outcome))
    (os : List Observed) : Batch.pending seen (os.map (·.settled outcomes)) = [] := by
  induction os with
  | nil => rfl
  | cons o os ih => exact ih

end Observed

/-- **Looking at a source again.** The session knows it as the first look saw it, and
    that look was made with the same options over the same files. -/
theorem Oracle.observe_settled {oracle oracle' : Oracle} {fs : FileSystem} {root path : Path}
    {o : Observed} {outcomes : List (String × Outcome)}
    (hwatch : oracle'.watch = oracle.watch) (hfreshness : oracle'.freshness = oracle.freshness)
    (h : oracle.observe fs root path = .ok o)
    (hget : oracle'.session.get? path = some (o.ingested outcomes).entry) :
    oracle'.observe fs root path = .ok (o.settled outcomes) := by
  obtain ⟨modified, hmodified, ⟨e, htime, rfl⟩ | ⟨-, content, hread, rfl⟩⟩ := observe_cases h
  · -- The entry that was good for the time is recorded with the time that it had.
    obtain ⟨hmode, -, known, seen, hknown, hseen, hle⟩ := byTime_eq_some_iff.1 htime
    have htime' := byTime_eq_some_iff.2
      ⟨hwatch ▸ hfreshness ▸ hmode, hget, known, seen, hknown, hseen, hle⟩
    rw [observe_of_byTime hmodified htime']
    rfl
  · cases htime' : oracle'.byTime path modified with
    | some e =>
      obtain ⟨-, hget', -⟩ := byTime_eq_some_iff.1 htime'
      rw [observe_of_byTime hmodified htime', ← Option.some.inj (hget.symm.trans hget')]
      rfl
    | none =>
      have hhit : oracle'.byContent path content (Digest.hex content) = .sessionHit _ :=
        byContent_of_get? hget rfl _
      rw [observe_of_read hmodified htime' hread, hhit]
      rfl

theorem Oracle.observeAll_settled {oracle oracle' : Oracle} {fs : FileSystem} {root : Path}
    {paths : List Path} {os : List Observed} {outcomes : List (String × Outcome)}
    (hwatch : oracle'.watch = oracle.watch) (hfreshness : oracle'.freshness = oracle.freshness)
    (h : oracle.observeAll fs root paths = .ok os)
    (hget : ∀ o ∈ os, oracle'.session.get? o.file.path = some (o.ingested outcomes).entry) :
    oracle'.observeAll fs root paths = .ok (os.map (·.settled outcomes)) := by
  rw [observeAll_eq_ok_iff] at h ⊢
  induction h with
  | nil => exact .nil
  | cons hfirst _ ih =>
    refine .cons ?_ (ih fun o ho => hget o (List.mem_cons_of_mem _ ho))
    refine observe_settled hwatch hfreshness hfirst ?_
    rw [← path_of_observe hfirst]
    exact hget _ List.mem_cons_self

/-- The output over sources that are settled. -/
theorem Output.ofObserved_settled (outcomes : List (String × Outcome)) (os : List Observed)
    (dispatched : Nat) :
    ofObserved (os.map (·.settled outcomes)) [] 0 =
      ⟨(ofObserved os outcomes dispatched).files, (ofObserved os outcomes dispatched).errors,
        { files := os.length
          sessionHits := os.length
          durableHits := 0
          dispatched := 0
          failures := (ofObserved os outcomes dispatched).stats.failures }⟩ := by
  have hfiles : (os.map (·.settled outcomes)).map (·.ingested []) =
      os.map (·.ingested outcomes) := by
    rw [List.map_map]
    rfl
  have hsession : (os.map (·.settled outcomes)).filter (·.isSessionHit) =
      os.map (·.settled outcomes) := by
    rw [List.filter_eq_self]
    intro o ho
    obtain ⟨looked, -, rfl⟩ := List.mem_map.1 ho
    rfl
  have hdurable : (os.map (·.settled outcomes)).filter (·.isDurableHit) = [] := by
    rw [List.filter_eq_nil_iff]
    intro o ho
    obtain ⟨looked, -, rfl⟩ := List.mem_map.1 ho
    exact Bool.false_ne_true
  unfold ofObserved
  simp only [hfiles, hsession, hdurable, List.length_map, List.length_nil]

/-! ## Two passes -/

namespace Intake

open Batch

variable {i : Intake} {fs : FileSystem} {parser : SourceParser} {s s' : IntakeState} {o : Output}

theorem pool_of_run (h : i.run fs parser s = (.ok o, s')) : s'.pool.prepared = false := by
  rw [run_eq] at h
  split at h
  · cases h
  · split at h
    · cases h
    · cases h
      rfl

/-- The paths of the files of a pass are all different. -/
theorem pairwise_files (h : i.run fs parser s = (.ok o, s')) :
    o.files.Pairwise fun a b => ¬ a.path.same b.path = true := by
  obtain ⟨paths, observed, hsources, hobserved, rfl, -, -⟩ := run_cases h
  have hpaths := pairwise_sources hsources
  rw [← Oracle.paths_of_observeAll hobserved, List.pairwise_map] at hpaths
  exact List.pairwise_map.2 hpaths

/-- **What it means that a pass has settled.** -/
structure IsSettled (i : Intake) (fs : FileSystem) (parser : SourceParser) (o : Output)
    (s' : IntakeState) : Prop where
  /-- The session has one entry for each file, with its path, its time, its content and
      its outcome, and no other entry. -/
  session : s'.session.entries.Perm (o.files.map (·.entry))
  /-- No path comes twice, so each file is found under its own. -/
  distinct : o.files.Pairwise fun a b => ¬ a.path.same b.path = true
  found : ∀ file ∈ o.files, s'.session.get? file.path = some file.entry
  /-- The next pass takes everything from the session. The state that it leaves is the
      one that it found: the session, the entries on disk, and the pool with its counts
      of requests and of calls of the parser. -/
  again : i.run fs parser s' =
    (.ok { o with stats :=
        { files := o.files.length
          sessionHits := o.files.length
          durableHits := 0
          dispatched := 0
          failures := o.stats.failures } }, s')

/-- **Passes settle** at once: a pass that follows a successful one over the same files
    gives the same and does nothing. -/
theorem isSettled_of_run (h : i.run fs parser s = (.ok o, s')) : i.IsSettled fs parser o s' := by
  have hdistinct := pairwise_files h
  have hprepared := pool_of_run h
  obtain ⟨paths, observed, hsources, hobserved, ho, hsession, hdurable⟩ := run_cases h
  have hfiles : o.files = observed.map (·.ingested (answers parser (pending [] observed))) := by
    rw [ho]
    rfl
  have hafter : s'.session = ⟨(o.files.map (·.entry)).reverse⟩ := by
    rw [hsession, Session.afterPass_eq hdistinct]
  have hfound : ∀ file ∈ o.files, s'.session.get? file.path = some file.entry := by
    intro file hfile
    rw [hsession]
    exact Session.get?_afterPass hdistinct s.session hfile
  have hagain : (i.oracle s').observeAll fs i.options.projectRoot paths =
      .ok (observed.map (·.settled (answers parser (pending [] observed)))) := by
    have hwatch : (i.oracle s').watch = (i.oracle s).watch := rfl
    refine Oracle.observeAll_settled hwatch rfl hobserved ?_
    intro looked hlooked
    have hfile : looked.ingested (answers parser (pending [] observed)) ∈ o.files := by
      rw [hfiles]
      exact List.mem_map_of_mem hlooked
    have hentry := hfound _ hfile
    have hpath : (looked.ingested (answers parser (pending [] observed))).path = looked.file.path :=
      rfl
    rw [hpath] at hentry
    exact hentry
  refine ⟨?_, hdistinct, hfound, ?_⟩
  · rw [hafter]
    exact List.reverse_perm _
  · have houtput := Output.ofObserved_settled (answers parser (pending [] observed)) observed
      (pending [] observed).length
    have hlength : o.files.length = observed.length := by rw [hfiles, List.length_map]
    have hpool : s'.pool.afterBatch [] = s'.pool := by
      unfold Pool.afterBatch
      rw [← hprepared]
      rfl
    have hstored : (s'.durable.map fun cache => storeAll 0 cache (stores [])) = s'.durable :=
      Option.map_id'
    have hkept : s'.session.afterPass o.files = s'.session := by
      rw [Session.afterPass_eq hdistinct, hafter]
    rw [← ho, ← hlength] at houtput
    rw [run_eq, hsources]
    simp only [hagain, Observed.pending_settled]
    show (Except.ok (Output.ofObserved _ [] 0),
      IntakeState.mk (s'.session.afterPass (Output.ofObserved _ [] 0).files)
        (s'.durable.map fun cache => storeAll 0 cache (stores [])) (s'.pool.afterBatch [])) = _
    rw [houtput, hkept, hstored, hpool]

end Intake

/-! ### A session with a past -/

namespace Settling

/-- A source whose outcome is known on disk. -/
def known : Bytes := Text.toUtf8 "module B exposing (..)\n"

/-- Three sources, of which the last one has no time and cannot be read by the parser. -/
def project : Memory :=
  Memory.empty.add ⟨"/p/src/A.elm"⟩ (Text.toUtf8 "a = 1\n") (some 3)
    |>.add ⟨"/p/src/B.elm"⟩ known (some 1) |>.add ⟨"/p/src/C.elm"⟩ (Text.toUtf8 "c =\n") none

/-- Takes in the sources, again and again, and trusts their times. -/
def intake : Intake :=
  ⟨{ projectRoot := ⟨"/p"⟩, directories := [⟨"src"⟩], watch := true, freshness := .trustTime }⟩

/-- The session knows the first source with a newer time and another content, and a file that
    is gone; the second source is known on disk. -/
def state : IntakeState where
  session := ⟨[⟨⟨"src/Old.elm"⟩, none, [], .failed []⟩, ⟨⟨"src//A.elm"⟩, some 5, [], .failed []⟩]⟩
  durable := some ((⟨⟨"/c"⟩, .absent⟩ : DurableCache EntryFolder).store 0 (Digest.hex known)
    ⟨.implicit, none, [], [], .dummy⟩)

/-- The first pass meets every way that a source can go, and settles. -/
theorem isSettled_of_run_mixed :
    ∃ o s', intake.run project.fileSystem .elm state = (.ok o, s') ∧ o.stats = ⟨3, 1, 1, 1, 2⟩ ∧
      intake.IsSettled project.fileSystem .elm o s' := by
  have hstats : (intake.run project.fileSystem .elm state).1.map (·.stats) =
      .ok ⟨3, 1, 1, 1, 2⟩ := by decide +kernel
  cases hrun : intake.run project.fileSystem .elm state with
  | mk result s' =>
    rw [hrun] at hstats
    cases result with
    | error e => cases hstats
    | ok o =>
      have hcounts : o.stats = ⟨3, 1, 1, 1, 2⟩ := Except.ok.inj hstats
      have hsettled := Intake.isSettled_of_run hrun
      exact ⟨o, s', rfl, hcounts, hsettled⟩

end Settling

end ElmIntake
