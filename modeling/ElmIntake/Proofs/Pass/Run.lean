import ElmIntake.Proofs.Entry.Storing
import ElmIntake.Proofs.Pass.Batch
import ElmIntake.Proofs.Pass.Observation

/-! # What a pass does

    The workers are there whenever a pass has something for them, so a pass
    fails only over its sources: when they cannot be found or one of them cannot
    be looked at. Otherwise it gives each source the outcome of the batch or of
    the caches, remembers exactly the files that it gives, and stores the modules
    of the batch. -/

namespace ElmIntake

/-! ## The pool -/

/-- The pool after a pass that sent some requests. -/
def Pool.afterBatch (pool : Pool) (requests : List ParseRequest) : Pool :=
  { pool with
    prepared := false
    dispatched := pool.dispatched + requests.length
    calls := pool.calls + (requests.filter (·.isText)).length }

/-! ## The session -/

namespace Session

variable {s : Session} {e : SessionEntry}

theorem mem_insert {new : SessionEntry} (h : e ∈ (s.insert new).entries) :
    e = new ∨ e ∈ s.entries ∧ ¬ new.path.same e.path = true := by
  rcases List.mem_cons.1 h with rfl | h
  · exact .inl rfl
  · exact .inr (by simpa using h)

/-- Entries after files were put in are those of files, or old ones of other
    paths. -/
theorem mem_foldl_insert {files : List IngestedFile}
    (h : e ∈ (files.foldl (fun s file => s.insert file.entry) s).entries) :
    (∃ file ∈ files, e = file.entry) ∨
      e ∈ s.entries ∧ ∀ file ∈ files, ¬ file.path.same e.path = true := by
  induction files generalizing s with
  | nil => exact .inr ⟨h, by simp⟩
  | cons first files ih =>
    rcases ih h with ⟨file, hfile, rfl⟩ | ⟨hmem, hothers⟩
    · exact .inl ⟨file, List.mem_cons_of_mem _ hfile, rfl⟩
    · rcases mem_insert hmem with rfl | ⟨hold, hne⟩
      · exact .inl ⟨first, List.mem_cons_self, rfl⟩
      · refine .inr ⟨hold, fun file hfile => ?_⟩
        rcases List.mem_cons.1 hfile with rfl | hfile
        · exact hne
        · exact hothers file hfile

/-- After a pass the session knows nothing but the files of the pass. -/
theorem mem_afterPass {files : List IngestedFile} (h : e ∈ (s.afterPass files).entries) :
    ∃ file ∈ files, e = file.entry := by
  obtain ⟨hmem, hkept⟩ := List.mem_filter.1 h
  rcases mem_foldl_insert hmem with hfile | ⟨-, hothers⟩
  · exact hfile
  · -- An old entry would be kept for a file of its path only, which replaced it.
    obtain ⟨file, hfile, hsame⟩ := List.any_eq_true.1 hkept
    rw [Path.same_iff] at hsame
    exact absurd (Path.same_iff.2 hsame.symm) (hothers file hfile)

end Session

/-! ## The durable cache -/

/-- Storing modules brings nothing that was not there or is not stored. -/
theorem Batch.get?_storeAll {writer : Nat} {cache : DurableCache EntryFolder}
    {modules : List (String × Module)} {hash : String} {tree : Module}
    (hsize : ∀ m ∈ modules, (Entry.of m.1 m.2).toBytes.length < 2 ^ 64)
    (h : (storeAll writer cache modules).get? hash = some tree) :
    cache.get? hash = some tree ∨ (hash, tree) ∈ modules := by
  induction modules generalizing writer cache with
  | nil => exact .inl h
  | cons m modules ih =>
    rcases ih (fun m hm => hsize m (List.mem_cons_of_mem _ hm)) h with hget | hmem
    · rcases DurableCache.get?_store (hsize m List.mem_cons_self) hget with hget | ⟨rfl, rfl⟩
      · exact .inl hget
      · exact .inr List.mem_cons_self
    · exact .inr (List.mem_cons_of_mem _ hmem)

/-! ## The pass -/

namespace Intake

open Batch

variable {i : Intake} {fs : FileSystem} {parser : SourceParser} {s : IntakeState}

/-- With the workers there, what is pending is read. -/
theorem parse_prepare (parser : SourceParser) (pool : Pool) (pending : List Pending) :
    parse parser pool.prepare pending =
      (.ok (answers parser pending),
        { pool.afterBatch (requests 0 pending) with prepared := true }) := by
  unfold parse
  cases pending with
  | nil => rfl
  | cons p ps =>
    simp only [List.isEmpty_cons, Bool.false_eq_true, if_false, Pool.parseBatch, Pool.prepare,
      if_true, outcomes_map_answer]
    rfl

/-- **A pass in one equation.** -/
theorem run_eq (i : Intake) (fs : FileSystem) (parser : SourceParser) (s : IntakeState) :
    i.run fs parser s =
      match i.sources fs with
      | .error e => (.error e, s)
      | .ok paths =>
        match (i.oracle s).observeAll fs i.options.projectRoot paths with
        | .error e => (.error e, { s with pool := s.pool.terminate })
        | .ok observed =>
          let pending := pending [] observed
          let (output, s) := finish s (s.pool.afterBatch (requests 0 pending)) observed
            pending.length (answers parser pending)
          (.ok output, s) := by
  unfold run
  cases i.sources fs with
  | error e => rfl
  | ok paths =>
    dsimp only
    cases (i.oracle s).observeAll fs i.options.projectRoot paths with
    | error e => rfl
    | ok observed =>
      dsimp only
      rw [parse_prepare]
      rfl

/-- A pass whose sources can all be looked at succeeds. -/
theorem run_of_observed {paths : List Path} {observed : List Observed}
    (hsources : i.sources fs = .ok paths)
    (hobserved : (i.oracle s).observeAll fs i.options.projectRoot paths = .ok observed) :
    (i.run fs parser s).1 =
      .ok (.ofObserved observed (answers parser (pending [] observed))
        (pending [] observed).length) := by
  rw [run_eq, hsources]
  simp only [hobserved]
  rfl

/-- What a pass that succeeded found, and what it left. -/
theorem run_cases {o : Output} {s' : IntakeState} (h : i.run fs parser s = (.ok o, s')) :
    ∃ paths observed, i.sources fs = .ok paths ∧
      (i.oracle s).observeAll fs i.options.projectRoot paths = .ok observed ∧
      o = .ofObserved observed (answers parser (pending [] observed)) (pending [] observed).length ∧
      s'.session = s.session.afterPass o.files ∧
      s'.durable = s.durable.map fun cache =>
        storeAll 0 cache (stores (answers parser (pending [] observed))) := by
  rw [run_eq] at h
  cases hsources : i.sources fs with
  | error e => simp [hsources] at h
  | ok paths =>
    cases hobserved : (i.oracle s).observeAll fs i.options.projectRoot paths with
    | error e => simp [hsources, hobserved] at h
    | ok observed =>
      simp only [hsources, hobserved, Prod.mk.injEq, Except.ok.injEq] at h
      obtain ⟨rfl, rfl⟩ := h
      exact ⟨paths, observed, rfl, hobserved, rfl, rfl, rfl⟩

/-- A pass that failed left both caches alone. -/
theorem run_failed {e : IngestError} {s' : IntakeState} (h : i.run fs parser s = (.error e, s')) :
    s'.session = s.session ∧ s'.durable = s.durable := by
  rw [run_eq] at h
  cases hsources : i.sources fs with
  | error e =>
    simp only [hsources, Prod.mk.injEq] at h
    obtain ⟨-, rfl⟩ := h
    exact ⟨rfl, rfl⟩
  | ok paths =>
    cases hobserved : (i.oracle s).observeAll fs i.options.projectRoot paths with
    | error e =>
      simp only [hsources, hobserved, Prod.mk.injEq] at h
      obtain ⟨-, rfl⟩ := h
      exact ⟨rfl, rfl⟩
    | ok observed => simp [hsources, hobserved] at h

end Intake

end ElmIntake
