import ElmIntake.Proofs.Pass.Run
import ElmIntake.Proofs.Path.Join

/-! # Trusting times

    In a session of many passes, a file that is not newer than what the session
    knows need not be read. This file shows that nothing is lost by that as long
    as changes of content make files newer: a pass that trusts times then does
    exactly what a pass that reads everything would have done.

    Files may change at any moment, also after a pass has asked for the time of
    a file and before it reads the file. So the time that a session remembers can
    be older than the content beside it, but never younger, and that is the
    invariant. -/

namespace ElmIntake

/-! ## Histories -/

/-- What is at a path at some moment. -/
structure FileRecord where
  /-- There is none if there is no file. -/
  content : Option Bytes
  modified : FileTime
  deriving Repr, DecidableEq

/-- What is where, at every moment. -/
abbrev History := Nat → List PathPart → FileRecord

namespace History

/-- **The discipline.** Known times never decrease, and every known time after a
    change of the content is greater than every known time before it. A file that
    goes away or comes back changes its content. -/
structure Disciplined (h : History) : Prop where
  monotone : ∀ path s t a b, s ≤ t → (h s path).modified = some a →
    (h t path).modified = some b → a ≤ b
  change : ∀ path m, (h m path).content ≠ (h (m + 1) path).content →
    ∀ s t a b, s ≤ m → m < t → (h s path).modified = some a → (h t path).modified = some b → a < b

/-- Is a file system one that somebody can see between two moments? Each question
    is answered in its own time; only, files are read after they were asked for
    their times. Any question may fail. -/
def Sees (h : History) (fs : FileSystem) (first last : Nat) : Prop :=
  ∀ path : Path, ∃ asked read, first ≤ asked ∧ asked ≤ read ∧ read ≤ last ∧
    (∀ modified, fs.modified path = .ok modified → (h asked path.parts).modified = modified) ∧
    ∀ content, fs.read path = .ok content → (h read path.parts).content = some content

variable {h : History} {path : List PathPart}

/-- Content stays as long as the known time stays. -/
theorem Disciplined.content_eq {s m t : Nat} {a : Int} (hd : h.Disciplined) (hsm : s ≤ m)
    (hmt : m ≤ t) (hs : (h s path).modified = some a) (ht : (h t path).modified = some a) :
    (h m path).content = (h t path).content := by
  have hkept : ∀ n, m ≤ n → n ≤ t → (h m path).content = (h n path).content := by
    intro n hmn
    induction hmn with
    | refl => exact fun _ => rfl
    | @step n hmn ih =>
      intro hnt
      by_cases hstep : (h n path).content = (h (n + 1) path).content
      · exact (ih (Nat.le_of_succ_le hnt)).trans hstep
      · -- A change would have made the file newer.
        have hless := hd.change path n hstep s t a a (Nat.le_trans hsm hmn) hnt hs ht
        exact absurd hless (Int.lt_irrefl a)
  exact hkept t hmt (Nat.le_refl t)

end History

/-! ## The session of one watcher -/

namespace Intake

/-- The intake, for many passes that decide by the given means. -/
def watching (i : Intake) (freshness : Freshness) : Intake :=
  ⟨{ i.options with watch := true, freshness }⟩

/-- The states that an intake which trusts times can be in at some moment. The
    parser, the pool and what is kept on disk do not matter here, so they may
    change as they like. -/
inductive Watched (i : Intake) (h : History) : Nat → IntakeState → Prop where
  | start (durable : Option (DurableCache EntryFolder)) (pool : Pool) :
      Watched i h 0 { session := {}, durable, pool }
  | wait {first last : Nat} {s : IntakeState} :
      Watched i h first s → first ≤ last → Watched i h last s
  | interfere {now : Nat} {s : IntakeState} (durable : Option (DurableCache EntryFolder))
      (pool : Pool) : Watched i h now s → Watched i h now { s with durable, pool }
  | clear {now : Nat} {s : IntakeState} :
      Watched i h now s → Watched i h now (clearCache s).2
  | pass {first last : Nat} {s : IntakeState} (fs : FileSystem) (parser : SourceParser) :
      Watched i h first s → h.Sees fs first last →
      Watched i h last ((i.watching .trustTime).run fs parser s).2

end Intake

/-! ## What the session remembers -/

/-- Was the time there no later than the content beside it, and both by now? An
    unknown time says nothing. -/
def SourceFile.Recalls (h : History) (root : Path) (now : Nat) (file : SourceFile) : Prop :=
  ∀ known, file.modified = some known → ∃ asked read, asked ≤ read ∧ read ≤ now ∧
    (h asked (root.join file.path).parts).modified = some known ∧
    (h read (root.join file.path).parts).content = some file.content

/-- The file that an entry was made for. -/
def SessionEntry.file (e : SessionEntry) : SourceFile := ⟨e.path, e.content, e.modified⟩

/-- **The invariant**: every entry recalls what was there. -/
def Session.Recalls (h : History) (root : Path) (now : Nat) (s : Session) : Prop :=
  ∀ e ∈ s.entries, e.file.Recalls h root now

section

variable {h : History} {root : Path} {now : Nat}

theorem Session.Recalls.mono {last : Nat} {s : Session} (hs : s.Recalls h root now)
    (hle : now ≤ last) : s.Recalls h root last := by
  intro e he known hknown
  obtain ⟨asked, read, hordered, hread, htime, hcontent⟩ := hs e he known hknown
  exact ⟨asked, read, hordered, Nat.le_trans hread hle, htime, hcontent⟩

/-- What the session remembers of a path holds for every path with the same
    parts. -/
theorem Session.Recalls.of_get? {s : Session} {path : Path} {e : SessionEntry}
    (hs : s.Recalls h root now) (hget : s.get? path = some e) :
    SourceFile.Recalls h root now ⟨path, e.content, e.modified⟩ := by
  obtain ⟨he, hsame⟩ := mem_of_get? hget
  have hparts := Path.parts_join_congr root (Path.same_iff.1 hsame)
  intro known hknown
  obtain ⟨asked, read, hordered, hread, htime, hcontent⟩ := hs e he known hknown
  refine ⟨asked, read, hordered, hread, ?_, ?_⟩
  · rw [← htime]
    exact congrArg (fun parts => (h asked parts).modified) hparts
  · rw [SourceFile.content, hparts]
    exact hcontent

/-- However a source is looked at, it recalls what was there. -/
theorem Oracle.observe_recalls {oracle : Oracle} {fs : FileSystem} {first : Nat} {path : Path}
    {o : Observed} (hsession : oracle.session.Recalls h root first)
    (hsees : h.Sees fs first now) (hfirst : first ≤ now)
    (ho : oracle.observe fs root path = .ok o) : o.file.Recalls h root now := by
  obtain ⟨modified, hmodified, ⟨e, htime, rfl⟩ | ⟨-, content, hcontent, rfl⟩⟩ := observe_cases ho
  · obtain ⟨-, hget, -⟩ := byTime_eq_some_iff.1 htime
    exact (hsession.mono hfirst).of_get? hget
  · -- The file was asked for its time first, and read later.
    intro known hknown
    obtain ⟨asked, read, -, hordered, hread, htime, hread'⟩ := hsees (root.join path)
    have hmodified' : modified = some known := hknown
    exact ⟨asked, read, hordered, hread, (htime _ hmodified).trans hmodified', hread' _ hcontent⟩

end

namespace Intake

variable {i : Intake} {h : History} {now : Nat} {s : IntakeState}

/-- **The step.** A pass that starts with a session that recalls leaves one. -/
theorem run_recalls {first last : Nat} {fs : FileSystem} {parser : SourceParser}
    (hsession : s.session.Recalls h i.options.projectRoot first) (hsees : h.Sees fs first last) :
    (i.run fs parser s).2.session.Recalls h i.options.projectRoot last := by
  have hle : first ≤ last := by
    obtain ⟨asked, read, hfirst, hordered, hlast, -⟩ := hsees ⟨""⟩
    exact Nat.le_trans (Nat.le_trans hfirst hordered) hlast
  rcases hrun : i.run fs parser s with ⟨_ | o, s'⟩
  · rw [(run_failed hrun).1]
    exact hsession.mono hle
  · obtain ⟨paths, os, -, hos, rfl, hsession', -⟩ := run_cases hrun
    rw [hsession']
    intro e he
    obtain ⟨file, hfile, rfl⟩ := Session.mem_afterPass he
    obtain ⟨o, ho, rfl⟩ := List.mem_map.1 hfile
    obtain ⟨path, -, hpath⟩ := Oracle.exists_of_mem_observeAll hos ho
    exact Oracle.observe_recalls hsession hsees hle hpath

/-- Clearing leaves an empty session, whatever becomes of the entries on disk. -/
theorem session_clearCache (s : IntakeState) : (clearCache s).2.session = {} := by
  unfold clearCache
  split <;> rfl

/-- **The run.** Every session of the watcher recalls what was there. -/
theorem Watched.recalls (hw : Watched i h now s) :
    s.session.Recalls h i.options.projectRoot now := by
  induction hw with
  | start durable pool =>
    intro e he
    cases he
  | wait _ hle ih => exact ih.mono hle
  | interfere durable pool _ ih => exact ih
  | clear _ ih =>
    rw [session_clearCache]
    intro e he
    cases he
  | pass fs parser _ hsees ih => exact run_recalls (i := i.watching .trustTime) ih hsees

end Intake

/-! ## Agreement -/

/-- A source at rest is seen alike by its time and by its content, if the session
    recalls what was there. -/
theorem Oracle.observe_eq_of_recalls {session : Session}
    {durable : Option (DurableCache EntryFolder)} {h : History} {root : Path} {now : Nat}
    {fs : FileSystem} {path : Path} {o : Observed} (hd : h.Disciplined)
    (hsession : session.Recalls h root now) (hrest : h.Sees fs now now)
    (ho : (Oracle.mk session durable true .content).observe fs root path = .ok o) :
    (Oracle.mk session durable true .trustTime).observe fs root path = .ok o := by
  obtain ⟨modified, hmodified, ⟨e, htime, -⟩ | ⟨-, content, hcontent, rfl⟩⟩ := observe_cases ho
  · obtain ⟨⟨-, htrust⟩, -⟩ := byTime_eq_some_iff.1 htime
    cases htrust
  · cases htime : (Oracle.mk session durable true .trustTime).byTime path modified with
    | none => exact observe_of_read hmodified htime hcontent
    | some e =>
      obtain ⟨-, hget, known, seen, hknown, rfl, hle⟩ := byTime_eq_some_iff.1 htime
      obtain ⟨asked, read, hfirst, hordered, hlast, htimeNow, hcontentNow⟩ := hrest (root.join path)
      have hasked : asked = now := Nat.le_antisymm (Nat.le_trans hordered hlast) hfirst
      have hread : read = now := Nat.le_antisymm hlast (Nat.le_trans hfirst hordered)
      subst hasked hread
      have hseen := htimeNow _ hmodified
      obtain ⟨t, u, htu, hu, hthen, hcontentThen⟩ := hsession.of_get? hget known hknown
      -- The session knows no younger time than there is, so that it is the same.
      have heq : known = seen :=
        Int.le_antisymm (hd.monotone _ _ _ _ _ (Nat.le_trans htu hu) hthen hseen) hle
      subst heq
      have hsameContent : e.content = content := by
        have hkept := hd.content_eq htu hu hthen hseen
        rw [hcontentThen, hcontentNow _ hcontent, Option.some.injEq] at hkept
        exact hkept
      have hhit : (Oracle.mk session durable true .content).byContent path content
          (Digest.hex content) = .sessionHit e := byContent_of_get? hget hsameContent _
      rw [observe_of_byTime hmodified htime, hhit, hsameContent, hknown]
      rfl

/-- **Trusting times loses nothing.** If the history is disciplined, then a pass
    that trusts times does what a pass that reads every file would do in its
    place: as long as that one succeeds and nothing changes meanwhile, they give
    the same files and errors, and leave the same state. -/
theorem Intake.run_trusting_time_eq_run_reading {i : Intake} {h : History} {now : Nat}
    {s : IntakeState} {fs : FileSystem} {parser : SourceParser} {o : Output}
    (hd : h.Disciplined) (hw : Watched i h now s) (hrest : h.Sees fs now now)
    (hok : ((i.watching .content).run fs parser s).1 = .ok o) :
    (i.watching .trustTime).run fs parser s = (i.watching .content).run fs parser s := by
  rcases hrun : (i.watching .content).run fs parser s with ⟨_ | o', s'⟩
  · rw [hrun] at hok
    cases hok
  · obtain ⟨paths, os, hsources, hos, -⟩ := run_cases hrun
    have hos' : ((i.watching .trustTime).oracle s).observeAll fs
        (i.watching .trustTime).options.projectRoot paths = .ok os :=
      Oracle.observeAll_congr hos fun _ _ ho =>
        Oracle.observe_eq_of_recalls hd hw.recalls hrest ho
    have hsources' : (i.watching .trustTime).sources fs = .ok paths := hsources
    rw [← hrun, run_eq, run_eq, hsources, hsources']
    dsimp only
    rw [hos, hos']

/-! ### An edit in the middle of a pass -/

namespace Torn

def source : Path := ⟨"/p/src/A.elm"⟩

def before : Bytes := Text.toUtf8 "module A exposing (..)\n\na = 1\n"

def after : Bytes := Text.toUtf8 "module A exposing (..)\n\na = 2\n"

/-- The one file is edited after moment 0. -/
def history : History := fun m path =>
  if path = source.parts then
    if m = 0 then ⟨some before, some 3⟩ else ⟨some after, some 5⟩
  else ⟨none, none⟩

/-- The file with its edited content and some time. -/
def project (modified : FileTime) : FileSystem :=
  (Memory.single source after modified).fileSystem

def intake : Intake := ⟨{ projectRoot := ⟨"/p"⟩, directories := [⟨"src"⟩] }⟩

/-- The state after a pass that asked for the old time and read the new content,
    and a pass that saw the new time, too. -/
def state : IntakeState :=
  let torn := ((intake.watching .trustTime).run (project (some 3)) .elm {}).2
  ((intake.watching .trustTime).run (project (some 5)) .elm torn).2

theorem history_disciplined : history.Disciplined where
  monotone path s t a b hst hs ht := by
    unfold history at hs ht
    split at hs
    · next hpath =>
      rw [if_pos hpath] at ht
      split at hs <;> split at ht <;> cases hs <;> cases ht <;> omega
    · cases hs
  change path m hne s t a b hs ht hsa htb := by
    unfold history at hne hsa htb
    split at hsa
    · next hpath =>
      simp only [if_pos hpath] at hne htb
      have hm : m = 0 := by
        by_contra hm
        simp [hm] at hne
      rw [if_pos (by omega)] at hsa
      rw [if_neg (by omega)] at htb
      cases hsa
      cases htb
      decide
    · cases hsa

theorem sees_project {modified : FileTime} {asked read : Nat} (hordered : asked ≤ read)
    (hmodified : (history asked source.parts).modified = modified)
    (hcontent : (history read source.parts).content = some after) :
    history.Sees (project modified) asked read := by
  intro path
  refine ⟨asked, read, Nat.le_refl _, hordered, Nat.le_refl _, fun t ht => ?_, fun c hc => ?_⟩
  · obtain ⟨hsame, rfl⟩ := Memory.modified_single ht
    rw [Path.same_iff.1 hsame, hmodified]
  · obtain ⟨hsame, rfl⟩ := Memory.read_single hc
    rw [Path.same_iff.1 hsame, hcontent]

/-- The third pass does not read the file, and is right. -/
theorem run_trusting_time_after_edit :
    ∃ o, ((intake.watching .trustTime).run (project (some 5)) .elm state).1 = .ok o ∧
      (intake.watching .trustTime).run (project (some 5)) .elm state =
        (intake.watching .content).run (project (some 5)) .elm state ∧
      o.files.map (·.content) = [after] := by
  have hwatched : Intake.Watched intake history 1 state :=
    .pass (project (some 5)) .elm
      (.pass (project (some 3)) .elm (.start none {})
        (sees_project (Nat.zero_le 1) rfl rfl))
      (sees_project (Nat.le_refl 1) rfl rfl)
  have hrest : history.Sees (project (some 5)) 1 1 := sees_project (Nat.le_refl 1) rfl rfl
  have hok : (((intake.watching .content).run (project (some 5)) .elm state).1.toOption.map
      fun o => o.files.map (·.content)) = some [after] := by decide +kernel
  rcases hrun : (intake.watching .content).run (project (some 5)) .elm state with ⟨_ | o, s'⟩
  · rw [hrun] at hok
    cases hok
  · have hreading : ((intake.watching .content).run (project (some 5)) .elm state).1 = .ok o := by
      rw [hrun]
    have hsame :=
      Intake.run_trusting_time_eq_run_reading history_disciplined hwatched hrest hreading
    rw [hrun] at hok hsame
    refine ⟨o, by rw [hsame], hsame, ?_⟩
    simpa [Except.toOption] using hok

end Torn

end ElmIntake
