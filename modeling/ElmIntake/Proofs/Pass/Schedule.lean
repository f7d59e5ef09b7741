import ElmIntake.FileSystem.Memory
import ElmIntake.Proofs.Entry.Writers
import ElmIntake.Proofs.Pass.Run
import ElmIntake.Proofs.Pass.SentOnce
import ElmIntake.Proofs.Pass.Workers

/-! # Passes do not depend on scheduling

    Two things of a pass are done by several workers at the same time: contents are
    read (`Shift`), and modules are stored (`Storing`). In which order that happens is
    up to the machine. `Intake.FinishesBy` says what a pass comes to in one of these
    orders; the pass itself, which does one thing after the other, is one of them.

    The outcomes are the same in all of them, as responses are found by their numbers,
    so the files, the errors and the session are the same as well; and what is stored
    is the same, as each module has a file of its own. -/

namespace ElmIntake

/-! ## Storing in order -/

namespace Batch

/-- The acts of writing for some modules, numbered from `writer` on. -/
def tasks (writer : Nat) : List (String × Module) → List StoreTask
  | [] => []
  | (hash, tree) :: rest => ⟨writer, hash, tree⟩ :: tasks (writer + 1) rest

theorem map_stored_tasks (writer : Nat) (modules : List (String × Module)) :
    (tasks writer modules).map (·.stored) = modules := by
  induction modules generalizing writer with
  | nil => rfl
  | cons m modules ih =>
    rw [tasks, List.map_cons, ih]
    rfl

/-- The modules of a pass are stored one after the other. -/
theorem storeAll_eq (writer : Nat) (cache : DurableCache EntryFolder)
    (modules : List (String × Module)) :
    storeAll writer cache modules =
      { cache with folder := Storing.inOrder cache.folder (tasks writer modules) } := by
  induction modules generalizing writer cache with
  | nil => rfl
  | cons m modules ih =>
    have hstore : cache.store writer m.1 m.2 =
        { cache with folder := (EntryPlace.put writer (.of m.1 m.2) cache.folder).2 } := by
      unfold DurableCache.store DurableCache.put
      cases EntryPlace.put writer (.of m.1 m.2) cache.folder with
      | mk fault folder => cases fault <;> rfl
    rw [storeAll, ih, hstore]
    rfl

/-- No digest is stored twice. -/
theorem nodup_stores (parser : SourceParser) (observed : List Observed) :
    ((stores (answers parser (pending [] observed))).map (·.1)).Nodup := by
  have hsub : ∀ outcomes : List (String × Outcome),
      ((stores outcomes).map (·.1)).Sublist (outcomes.map (·.1)) := by
    intro outcomes
    induction outcomes with
    | nil => exact .slnil
    | cons first outcomes ih =>
      obtain ⟨hash, outcome⟩ := first
      cases outcome with
      | parsed tree => exact ih.cons_cons hash
      | failed diagnostics => exact ih.cons hash
  refine (hsub _).nodup ?_
  unfold answers
  rw [List.map_map]
  exact (nodup_pending [] observed).1

end Batch

namespace DurableCache

/-- Is the same found under every digest in two caches? -/
def SameEntries (c c' : DurableCache EntryFolder) : Prop := ∀ hash, c'.load hash = c.load hash

theorem load_congr {c c' : DurableCache EntryFolder} {hash : String} (hdir : c'.dir = c.dir)
    (hread : c'.folder.read (EntryPlace.entryName hash) =
      c.folder.read (EntryPlace.entryName hash)) : c'.load hash = c.load hash := by
  have hread' : EntryPlace.read (EntryPlace.entryName hash) c'.folder =
      EntryPlace.read (EntryPlace.entryName hash) c.folder := hread
  unfold load entryPath
  rw [hread', hdir]

end DurableCache

/-! ## Passes whose work is shared out -/

namespace Intake

open Batch

/-- **What a pass can come to**, once its sources have been looked at: `shift` is how
    the contents were read, and `tasks` are the acts of writing, whose steps were done
    in some order. -/
structure FinishesBy (parser : SourceParser) (workers : Nat) (s : IntakeState)
    (observed : List Observed) (shift : Shift) (tasks : List StoreTask) (o : Output)
    (s' : IntakeState) : Prop where
  answered : shift.Ends parser workers (requests 0 (pending [] observed))
  /-- The responses are found by their numbers. -/
  output : o = .ofObserved observed (outcomes shift.sent 0 (pending [] observed))
    (pending [] observed).length
  /-- Every module has an act of writing. -/
  stored : (tasks.map (·.stored)).Perm (stores (outcomes shift.sent 0 (pending [] observed)))
  durable : Option.Rel (fun c c' => c'.dir = c.dir ∧ Storing.Ends c.folder tasks c'.folder)
    s.durable s'.durable
  session : s'.session = s.session.afterPass o.files
  pool : s'.pool =
    { s.pool with
      prepared := false
      dispatched := s.pool.dispatched + (requests 0 (pending [] observed)).length
      calls := s.pool.calls + shift.calls }

variable {i : Intake} {fs : FileSystem} {parser : SourceParser} {workers : Nat}
  {s s' : IntakeState} {observed : List Observed} {shift : Shift} {tasks : List StoreTask}
  {o : Output}

theorem FinishesBy.outcomes_eq (h : FinishesBy parser workers s observed shift tasks o s') :
    outcomes shift.sent 0 (pending [] observed) = answers parser (pending [] observed) :=
  outcomes_of_perm h.answered.perm

/-- What is stored does not hang on the order. -/
theorem FinishesBy.sameEntries (h : FinishesBy parser workers s observed shift tasks o s')
    (hnumbers : ∀ cache, s.durable = some cache →
      tasks.Perm (Batch.tasks 0 (stores (answers parser (pending [] observed)))) ∨
        cache.folder.IsPlain) :
    Option.Rel DurableCache.SameEntries
      (s.durable.map fun cache => storeAll 0 cache (stores (answers parser (pending [] observed))))
      s'.durable := by
  have hdurable := h.durable
  have hstored := h.stored
  rw [h.outcomes_eq] at hstored
  generalize s.durable = before at hdurable hnumbers
  generalize s'.durable = after at hdurable
  cases hdurable with
  | none => exact .none
  | @some c c' hends =>
    obtain ⟨hdir, hends⟩ := hends
    refine .some ?_
    intro hash
    dsimp only
    rw [storeAll_eq]
    refine DurableCache.load_congr hdir ?_
    -- Each digest is stored once, so no two tasks write the same entry.
    have hnodup : ((Batch.tasks 0 (stores (answers parser (pending [] observed)))).map
        (·.hash)).Nodup := by
      have hhashes := nodup_stores parser observed
      rw [← map_stored_tasks 0 (stores (answers parser (pending [] observed))),
        List.map_map] at hhashes
      exact hhashes
    refine Storing.Ends.read_eq hnodup ?_ (hnumbers c rfl) (Storing.ends_inOrder _ _) hends hash
    rw [map_stored_tasks]
    exact hstored

/-- **What scheduling leaves open, and what it does not.** -/
structure IgnoresSchedule (i : Intake) (fs : FileSystem) (parser : SourceParser)
    (s : IntakeState) (observed : List Observed) : Prop where
  /-- However the work is shared out, the output, the session and the pool are those of
      the pass, and so are the entries on disk. The writers may have any numbers, unless
      something that is no file bears the name of a temporary file. -/
  result : ∀ workers shift tasks o s',
    FinishesBy parser workers s observed shift tasks o s' →
    (∀ cache, s.durable = some cache →
      tasks.Perm (Batch.tasks 0 (stores (answers parser (pending [] observed)))) ∨
        cache.folder.IsPlain) →
    (i.run fs parser s).1 = .ok o ∧ (i.run fs parser s).2.session = s'.session ∧
      (i.run fs parser s).2.pool = s'.pool ∧
      Option.Rel DurableCache.SameEntries (i.run fs parser s).2.durable s'.durable
  /-- The responses can come in any order, and the modules can be stored in any order. -/
  anyOrder : ∀ workers order tasks, 0 < workers →
    (requests 0 (pending [] observed)).Perm order →
    (tasks.map (·.stored)).Perm (stores (answers parser (pending [] observed))) →
    ∃ shift o s', FinishesBy parser workers s observed shift tasks o s' ∧
      shift.sent = order.map (·.answer parser) ∧
      s'.durable = s.durable.map fun cache =>
        { cache with folder := Storing.inOrder cache.folder tasks }
  /-- In any batch each request is answered by the outcome of its own content, whatever
      the others are. -/
  own : ∀ workers batch shift, Shift.Ends parser workers batch shift →
    shift.sent.Perm (batch.map fun r => ⟨r.id, parser.outcome r.content⟩)

/-- **A pass does not depend on scheduling.** -/
theorem run_ignoresSchedule (parser : SourceParser) {paths : List Path}
    (hsources : i.sources fs = .ok paths)
    (hobserved : (i.oracle s).observeAll fs i.options.projectRoot paths = .ok observed) :
    i.IgnoresSchedule fs parser s observed := by
  have hrun : i.run fs parser s =
      (.ok (.ofObserved observed (answers parser (pending [] observed))
          (pending [] observed).length),
        (finish s (s.pool.afterBatch (requests 0 (pending [] observed))) observed
          (pending [] observed).length (answers parser (pending [] observed))).2) := by
    rw [run_eq, hsources]
    simp only [hobserved]
    rfl
  constructor
  case result =>
    intro workers shift tasks o s' h hnumbers
    have houtput := h.output
    rw [h.outcomes_eq] at houtput
    have hpool := h.pool
    rw [h.answered.calls] at hpool
    rw [hrun]
    refine ⟨congrArg Except.ok houtput.symm, ?_, hpool.symm, h.sameEntries hnumbers⟩
    rw [h.session, houtput]
    rfl
  case anyOrder =>
    intro workers order tasks hworkers hperm hstored
    obtain ⟨shift, hends, hsent⟩ := Shift.exists_ends_of_perm parser hworkers hperm
    have houtcomes : outcomes shift.sent 0 (pending [] observed) =
        answers parser (pending [] observed) := outcomes_of_perm hends.perm
    let o : Output := .ofObserved observed (outcomes shift.sent 0 (pending [] observed))
      (pending [] observed).length
    refine ⟨shift, o, ⟨s.session.afterPass o.files, _, _⟩, ⟨hends, rfl, houtcomes ▸ hstored, ?_,
      rfl, rfl⟩, hsent, rfl⟩
    show Option.Rel _ s.durable (s.durable.map _)
    cases s.durable with
    | none => exact .none
    | some cache => exact .some ⟨rfl, Storing.ends_inOrder cache.folder tasks⟩
  case own =>
    intro workers batch shift hends
    exact hends.perm

end Intake

/-! ### A batch with bad company -/

namespace Scattered

open Batch

/-- A good source, one that is no text, and one that the parser crashes on. -/
def project : Memory :=
  Memory.empty.add ⟨"/p/src/A.elm"⟩ (Text.toUtf8 "module A exposing (..)\n") none
    |>.add ⟨"/p/src/B.elm"⟩ [0xff] none |>.add ⟨"/p/src/C.elm"⟩ (Text.toUtf8 "boom") none

/-- The parser, which crashes on the third source. -/
def parser : SourceParser := .explodingOn "boom"

/-- Takes in the sources. -/
def intake : Intake := ⟨{ projectRoot := ⟨"/p"⟩, directories := [⟨"src"⟩] }⟩

/-- Nothing is known yet, and there is no folder of entries. -/
def state : IntakeState := { durable := some ⟨⟨"/c"⟩, .absent⟩ }

/-- All three sources are sent, and the pass comes to the same if two workers answer
    them backwards. -/
theorem run_ignoresSchedule_scattered :
    ∃ paths observed, intake.sources project.fileSystem = .ok paths ∧
      (intake.oracle state).observeAll project.fileSystem intake.options.projectRoot paths =
        .ok observed ∧
      intake.IgnoresSchedule project.fileSystem parser state observed ∧
      (pending [] observed).length = 3 ∧
      ∃ shift tasks o s', Intake.FinishesBy parser 2 state observed shift tasks o s' ∧
        shift.sent = (requests 0 (pending [] observed)).reverse.map (·.answer parser) ∧
        (intake.run project.fileSystem parser state).1 = .ok o := by
  have hstats : (intake.run project.fileSystem parser state).1.map
      (fun o => (o.stats.dispatched, o.stats.failures)) = .ok (3, 2) := by decide +kernel
  cases hrun : intake.run project.fileSystem parser state with
  | mk result s' =>
    rw [hrun] at hstats
    cases result with
    | error e => cases hstats
    | ok o =>
      obtain ⟨paths, observed, hsources, hobserved, rfl, -, -⟩ := Intake.run_cases hrun
      have hignores := Intake.run_ignoresSchedule parser hsources hobserved
      have hlength : (pending [] observed).length = 3 := (Prod.mk.inj (Except.ok.inj hstats)).1
      obtain ⟨shift, o, s', hfinishes, hsent, -⟩ := hignores.anyOrder 2
        (requests 0 (pending [] observed)).reverse
        (tasks 0 (stores (answers parser (pending [] observed)))) (by decide)
        (List.reverse_perm _).symm (by rw [map_stored_tasks])
      have hresult := hignores.result 2 shift _ o s' hfinishes fun _ _ => .inl (List.Perm.refl _)
      refine ⟨paths, observed, hsources, hobserved, hignores, hlength, shift, _, o, s', hfinishes,
        hsent, ?_⟩
      rw [← hresult.1, hrun]

end Scattered

end ElmIntake
