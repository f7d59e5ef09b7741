import ElmIntake.Proofs.Pass.Run
import Mathlib.Data.Set.Function

/-! # Passes with a past

    A pass that starts with caches gives what a pass from scratch would give.
    The caches can have any past: passes with any options over any file systems,
    clearings, new sessions, and damage to the entries on disk.

    Two things are kept by all of that. Every entry of the session holds the
    outcome of its own content, and every module that is found on disk is that of
    the content with its digest. Only a pass adds to either, and it adds what the
    batch gave; there the digest stands for the content, which is right as long
    as no two of the contents in play have the same one. -/

namespace ElmIntake

/-! ## What is left between passes -/

/-- The caches between passes: the session of the program, and the entries on
    disk, which are there also while nobody uses them. -/
structure Caches where
  session : Session := {}
  entries : DurableCache EntryFolder

namespace Caches

/-- The state that a pass starts in. It sees the entries on disk only if results
    are `kept` there. -/
def state (c : Caches) (kept : Bool) (pool : Pool) : IntakeState :=
  { session := c.session, durable := if kept then some c.entries else none, pool }

/-- The caches that a state leaves. -/
def after (c : Caches) (s : IntakeState) : Caches := ⟨s.session, s.durable.getD c.entries⟩

end Caches

/-- Is a module that of every content in play with the digest `hash`? -/
def IsModuleOf (parser : SourceParser) (contents : Set Bytes) (hash : String) (tree : Module) :
    Prop :=
  ∀ content ∈ contents, Digest.hex content = hash → parser.outcome content = .parsed tree

/-- Does a file system hold no contents but those in play? -/
def FileSystem.HoldsOnly (fs : FileSystem) (contents : Set Bytes) : Prop :=
  ∀ path content, fs.read path = .ok content → content ∈ contents

/-- Do the entries of all contents in play fit? The lengths in an entry are counted
    in 64 bits, which is more than a machine can hold. -/
def SourceParser.FitsEntries (parser : SourceParser) (contents : Set Bytes) : Prop :=
  ∀ content ∈ contents, ∀ tree, parser.outcome content = .parsed tree →
    (Entry.of (Digest.hex content) tree).toBytes.length < 2 ^ 64

/-- **Damage** to the entries on disk: anything at all, save for an entry that is
    accepted and is neither one that was there nor the right one. -/
def Damage (parser : SourceParser) (contents : Set Bytes)
    (before after : DurableCache EntryFolder) : Prop :=
  ∀ hash e, after.load hash = .ok (some e) →
    before.load hash = .ok (some e) ∨ IsModuleOf parser contents hash e.tree

/-- The caches that any past can leave. File systems change between passes as
    they like, so every pass has its own. -/
inductive Reachable (parser : SourceParser) (contents : Set Bytes) : Caches → Prop where
  /-- Nothing is known, in the session or on disk. -/
  | start (dir : Path) : Reachable parser contents ⟨{}, ⟨dir, .absent⟩⟩
  | pass {c : Caches} (i : Intake) (fs : FileSystem) (kept : Bool) (pool : Pool) :
      Reachable parser contents c → fs.HoldsOnly contents →
      Reachable parser contents (c.after (i.run fs parser (c.state kept pool)).2)
  | clear {c : Caches} (kept : Bool) (pool : Pool) :
      Reachable parser contents c →
      Reachable parser contents (c.after (Intake.clearCache (c.state kept pool)).2)
  | newSession {c : Caches} :
      Reachable parser contents c → Reachable parser contents { c with session := {} }
  | damage {c : Caches} (folder : EntryFolder) :
      Reachable parser contents c →
      Damage parser contents c.entries { c.entries with folder } →
      Reachable parser contents { c with entries := { c.entries with folder } }

/-- Are some bytes harmless under a digest? They are if they are no accepted
    entry, or the right one. -/
def Harmless (parser : SourceParser) (contents : Set Bytes) (hash : String) (bytes : Bytes) :
    Prop :=
  ∀ e, Entry.ofBytes bytes = .ok e → e.version = Entry.currentVersion → e.contentHash = hash →
    IsModuleOf parser contents hash e.tree

namespace Damage

variable {parser : SourceParser} {contents : Set Bytes} {c : DurableCache EntryFolder}

theorem of_read {folder : EntryFolder}
    (h : ∀ hash bytes, folder.read (EntryPlace.entryName hash) = .ok bytes →
      c.folder.read (EntryPlace.entryName hash) = .ok bytes ∨
        Harmless parser contents hash bytes) :
    Damage parser contents c { c with folder } := by
  intro hash e hload
  rw [DurableCache.load_eq_some_iff] at hload ⊢
  obtain ⟨bytes, hread, hentry, hversion, hhash⟩ := hload
  rcases h hash bytes hread with hold | hharmless
  · exact .inl ⟨bytes, hold, hentry, hversion, hhash⟩
  · exact .inr (hharmless e hentry hversion hhash)

/-- Harmless bytes may be written over an entry: cut off entries, garbage and
    other versions all are. -/
theorem tamper {hash : String} {bytes : Bytes} (h : Harmless parser contents hash bytes) :
    Damage parser contents c { c with folder := c.folder.tamper hash bytes } := by
  refine of_read fun other read hread => ?_
  obtain ⟨hself, hothers⟩ := EntryFolder.read_tamper hash bytes c.folder
  by_cases heq : other = hash
  · subst heq
    rcases hself with hself | hself
    · rw [hself, Except.ok.injEq] at hread
      subst hread
      exact .inr h
    · exact .inl (hself.symm.trans hread)
  · exact .inl ((hothers other heq).symm.trans hread)

/-- The file for one digest may be taken for that of another one if it is
    harmless there, which it is as long as it holds its own entry. -/
theorem misname {hash target : String}
    (h : ∀ bytes, c.folder.read (EntryPlace.entryName hash) = .ok bytes →
      Harmless parser contents target bytes) :
    Damage parser contents c { c with folder := c.folder.misname hash target } := by
  refine of_read fun other read hread => ?_
  rcases EntryFolder.read_misname hread with hold | ⟨rfl, hsource⟩
  · exact .inl hold
  · exact .inr (h read hsource)

end Damage

/-! ## What the caches keep -/

/-- Every entry of the session holds the outcome of its own content. -/
def Session.IsSound (parser : SourceParser) (s : Session) : Prop :=
  ∀ e ∈ s.entries, e.outcome = parser.outcome e.content

/-- Every module that is found is that of the content with its digest. -/
def DurableCache.IsSound (parser : SourceParser) (contents : Set Bytes)
    (c : DurableCache EntryFolder) : Prop :=
  ∀ hash tree, c.get? hash = some tree → IsModuleOf parser contents hash tree

/-- The invariant of the caches. -/
structure Caches.IsSound (parser : SourceParser) (contents : Set Bytes) (c : Caches) : Prop where
  session : c.session.IsSound parser
  entries : c.entries.IsSound parser contents

/-- What a sound source that was looked at says about its content. -/
def Observed.IsSound (parser : SourceParser) (contents : Set Bytes) (o : Observed) : Prop :=
  match o.resolution with
  | .session outcome => outcome = parser.outcome o.file.content
  | .durable tree => parser.outcome o.file.content = .parsed tree
  | .parse hash => hash = Digest.hex o.file.content ∧ o.file.content ∈ contents

section

variable {parser : SourceParser} {contents : Set Bytes}

/-! ### Looking at sources -/

/-- Sound caches give sound answers. -/
theorem Oracle.observe_isSound {oracle : Oracle} {fs : FileSystem} {root path : Path}
    {o : Observed} (hfs : fs.HoldsOnly contents) (hsession : oracle.session.IsSound parser)
    (hdurable : ∀ cache, oracle.durable = some cache → cache.IsSound parser contents)
    (h : oracle.observe fs root path = .ok o) : o.IsSound parser contents := by
  obtain ⟨modified, -, ⟨e, htime, rfl⟩ | ⟨-, content, hread, rfl⟩⟩ := observe_cases h
  · obtain ⟨-, hget, -⟩ := byTime_eq_some_iff.1 htime
    exact hsession e (Session.mem_of_get? hget).1
  · have hplay := hfs _ _ hread
    rcases oracle.byContent_cases path content (Digest.hex content) with
      ⟨e, hget, rfl, hverdict⟩ | ⟨-, ⟨cache, tree, hcache, hget, hverdict⟩ | ⟨-, hverdict⟩⟩
    · rw [hverdict]
      exact hsession e (Session.mem_of_get? hget).1
    · rw [hverdict]
      exact hdurable cache hcache _ tree hget content hplay rfl
    · rw [hverdict]
      exact ⟨rfl, hplay⟩

theorem Oracle.observeAll_isSound {oracle : Oracle} {fs : FileSystem} {root : Path}
    {paths : List Path} {os : List Observed} (hfs : fs.HoldsOnly contents)
    (hsession : oracle.session.IsSound parser)
    (hdurable : ∀ cache, oracle.durable = some cache → cache.IsSound parser contents)
    (h : oracle.observeAll fs root paths = .ok os) : ∀ o ∈ os, o.IsSound parser contents := by
  intro o ho
  obtain ⟨path, -, hpath⟩ := exists_of_mem_observeAll h ho
  exact observe_isSound hfs hsession hdurable hpath

/-! ### The batch -/

/-- Each digest that is asked for is that of the content sent, which is in
    play. -/
theorem Batch.hash_eq_of_mem_pending {os : List Observed} {p : Pending}
    (hsound : ∀ o ∈ os, o.IsSound parser contents)
    (hp : p ∈ pending [] os) :
    p.hash = Digest.hex p.content ∧ p.content ∈ contents := by
  obtain ⟨o, ho, hhash, hcontent⟩ := exists_of_mem_pending hp
  have hs := hsound o ho
  unfold Observed.IsSound at hs
  unfold Observed.hash? at hhash
  split at hhash
  · next hash hresolution =>
    cases hhash
    rw [hresolution] at hs
    rw [← hcontent]
    exact hs
  · cases hhash

/-- Sound sources get the outcomes of their own contents. -/
theorem Observed.outcome_eq {os : List Observed} {o : Observed}
    (hinj : Set.InjOn Digest.hex contents) (hsound : ∀ o ∈ os, o.IsSound parser contents)
    (ho : o ∈ os) :
    o.outcome (Batch.answers parser (Batch.pending [] os)) = parser.outcome o.file.content := by
  have hs := hsound o ho
  unfold IsSound at hs
  unfold outcome
  cases hresolution : o.resolution with
  | session outcome =>
    rw [hresolution] at hs
    exact hs
  | durable tree =>
    rw [hresolution] at hs
    exact hs.symm
  | parse hash =>
    rw [hresolution] at hs
    obtain ⟨rfl, hplay⟩ := hs
    have hhash : o.hash? = some (Digest.hex o.file.content) := by
      rw [hash?, hresolution]
    obtain ⟨p, hp, hpeq⟩ := Batch.exists_mem_pending ho hhash (List.not_mem_nil)
    dsimp only
    -- The answer is found by its digest and may have been given to another source,
    -- but without collisions the content is the same.
    cases hfind : (Batch.answers parser (Batch.pending [] os)).find?
        (·.1 == Digest.hex o.file.content) with
    | none =>
      have hother := List.find?_eq_none.1 hfind _ (List.mem_map_of_mem hp)
      simp [hpeq] at hother
    | some answer =>
      obtain ⟨p', hp', rfl⟩ := List.mem_map.1 (List.mem_of_find?_eq_some hfind)
      obtain ⟨hhash', hplay'⟩ := Batch.hash_eq_of_mem_pending hsound hp'
      have hdigest : p'.hash = Digest.hex o.file.content := by
        simpa using List.find?_some hfind
      have hcontent : p'.content = o.file.content := hinj hplay' hplay (hhash'.symm.trans hdigest)
      simp only [hcontent]

/-! ### Passes -/

/-- A file with the outcome of its own content. -/
def SourceParser.ingest (parser : SourceParser) (file : SourceFile) : IngestedFile :=
  ⟨file, parser.outcome file.content⟩

/-- The files of a pass over sound sources: each as it was seen, with the outcome
    of its own content. -/
theorem Output.files_ofObserved {os : List Observed} {n : Nat}
    (hinj : Set.InjOn Digest.hex contents) (hsound : ∀ o ∈ os, o.IsSound parser contents) :
    (ofObserved os (Batch.answers parser (Batch.pending [] os)) n).files =
      (os.map (·.file)).map parser.ingest := by
  rw [List.map_map]
  refine List.map_congr_left fun o ho => ?_
  rw [Observed.ingested, Observed.outcome_eq hinj hsound ho]
  rfl

/-- Modules that are stored are those of their contents. -/
theorem DurableCache.storeAll_isSound {cache : DurableCache EntryFolder} {os : List Observed}
    (hinj : Set.InjOn Digest.hex contents)
    (hfits : parser.FitsEntries contents) (hcache : cache.IsSound parser contents)
    (hsound : ∀ o ∈ os, o.IsSound parser contents) :
    (Batch.storeAll 0 cache (Batch.stores (Batch.answers parser (Batch.pending [] os)))).IsSound
      parser contents := by
  have hstored : ∀ m ∈ Batch.stores (Batch.answers parser (Batch.pending [] os)),
      ∃ content ∈ contents, m.1 = Digest.hex content ∧ parser.outcome content = .parsed m.2 := by
    intro m hm
    obtain ⟨p, hp, hm, houtcome⟩ := Batch.exists_of_mem_stores hm
    obtain ⟨hhash, hplay⟩ := Batch.hash_eq_of_mem_pending hsound hp
    exact ⟨p.content, hplay, hm.symm.trans hhash, houtcome⟩
  have hbounded : ∀ m ∈ Batch.stores (Batch.answers parser (Batch.pending [] os)),
      (Entry.of m.1 m.2).toBytes.length < 2 ^ 64 := by
    intro m hm
    obtain ⟨content, hplay, hhash, houtcome⟩ := hstored m hm
    rw [hhash]
    exact hfits content hplay m.2 houtcome
  intro hash tree hget
  rcases Batch.get?_storeAll hbounded hget with hold | hnew
  · exact hcache hash tree hold
  · obtain ⟨content, hplay, hhash, houtcome⟩ := hstored _ hnew
    -- Contents with one digest are one content.
    intro content' hplay' hhash'
    rw [hinj hplay' hplay (hhash'.trans hhash)]
    exact houtcome

/-- What the sources looked at in a pass say about their contents, if the caches
    are sound. -/
theorem Caches.IsSound.observed {c : Caches} {i : Intake} {fs : FileSystem} {kept : Bool}
    {pool : Pool} {paths : List Path} {os : List Observed} (hc : c.IsSound parser contents)
    (hfs : fs.HoldsOnly contents)
    (hos : (i.oracle (c.state kept pool)).observeAll fs i.options.projectRoot paths = .ok os) :
    ∀ o ∈ os, o.IsSound parser contents := by
  refine Oracle.observeAll_isSound hfs hc.session (fun cache hcache => ?_) hos
  have hkept : (if kept then some c.entries else none) = some cache := hcache
  split at hkept
  · cases hkept
    exact hc.entries
  · cases hkept

/-- **A pass keeps the caches sound.** -/
theorem Caches.IsSound.run {c : Caches} (i : Intake) {fs : FileSystem} (kept : Bool) (pool : Pool)
    (hinj : Set.InjOn Digest.hex contents) (hfits : parser.FitsEntries contents)
    (hc : c.IsSound parser contents) (hfs : fs.HoldsOnly contents) :
    (c.after (i.run fs parser (c.state kept pool)).2).IsSound parser contents := by
  rcases hrun : i.run fs parser (c.state kept pool) with ⟨_ | o, s'⟩
  · -- A pass that fails leaves both caches alone.
    obtain ⟨hsession, hdurable⟩ := Intake.run_failed hrun
    constructor
    · simp only [Caches.after, hsession]
      exact hc.session
    · simp only [Caches.after, hdurable, Caches.state]
      cases kept <;> exact hc.entries
  · obtain ⟨paths, os, -, hos, rfl, hsession, hdurable⟩ := Intake.run_cases hrun
    have hsound := hc.observed hfs hos
    constructor
    · intro e he
      simp only [Caches.after, hsession] at he
      obtain ⟨file, hfile, rfl⟩ := Session.mem_afterPass he
      rw [Output.files_ofObserved hinj hsound] at hfile
      obtain ⟨seen, -, rfl⟩ := List.mem_map.1 hfile
      rfl
    · simp only [Caches.after, hdurable, Caches.state]
      cases kept
      · exact hc.entries
      · exact DurableCache.storeAll_isSound hinj hfits hc.entries hsound

/-- Clearing keeps the caches sound, whether the entries can be cleared or not. -/
theorem Caches.IsSound.clear {c : Caches} (kept : Bool) (pool : Pool)
    (hc : c.IsSound parser contents) :
    (c.after (Intake.clearCache (c.state kept pool)).2).IsSound parser contents := by
  have hempty : Session.IsSound parser {} := fun e he => by cases he
  cases kept with
  | false => exact ⟨hempty, hc.entries⟩
  | true =>
    -- Entries that could not be cleared are still sound.
    refine ⟨hempty, fun hash tree hget => ?_⟩
    change ((c.entries.clear).2).get? hash = some tree at hget
    unfold DurableCache.clear at hget
    split at hget
    · next folder hclear =>
      rw [DurableCache.get?_eq_some_iff] at hget
      obtain ⟨e, hload, -⟩ := hget
      obtain ⟨content, hread, -⟩ := DurableCache.load_eq_some_iff.1 hload
      exact absurd hread (EntryFolder.read_of_clear hclear _ _)
    · exact hc.entries hash tree hget

/-- **Whatever the past, the caches are sound.** The induction is on the past. -/
theorem Reachable.isSound {c : Caches} (hinj : Set.InjOn Digest.hex contents)
    (hfits : parser.FitsEntries contents) (h : Reachable parser contents c) :
    c.IsSound parser contents := by
  induction h with
  | start dir => exact ⟨fun e he => (by cases he), fun hash tree hget => (by cases hget)⟩
  | pass i fs kept pool _ hfs ih => exact ih.run i kept pool hinj hfits hfs
  | clear kept pool _ ih => exact ih.clear kept pool
  | newSession _ ih => exact ⟨fun e he => (by cases he), ih.entries⟩
  | damage folder _ hdamage ih =>
    refine ⟨ih.session, fun hash tree hget => ?_⟩
    obtain ⟨e, hload, rfl⟩ := DurableCache.get?_eq_some_iff.1 hget
    rcases hdamage hash e hload with hold | hright
    · exact ih.entries hash e.tree (DurableCache.get?_eq_some_iff.2 ⟨e, hold, rfl⟩)
    · exact hright

/-! ## Agreement -/

/-- **A pass with a past agrees with one from scratch.** If no two contents in
    play have the same digest, then each file of a pass has the outcome of the
    content that the pass gives for it. Unless times are trusted, these are the
    contents and times of the file system, so that the files and errors are those
    of a pass that starts with an empty session and keeps nothing on disk. -/
theorem Intake.run_agrees_with_fresh_run {c : Caches} {i : Intake} {fs : FileSystem}
    {kept : Bool} {pool : Pool} {o : Output} {s' : IntakeState}
    (hinj : Set.InjOn Digest.hex contents) (hfits : parser.FitsEntries contents)
    (hreach : Reachable parser contents c) (hfs : fs.HoldsOnly contents)
    (hrun : i.run fs parser (c.state kept pool) = (.ok o, s')) :
    (∀ file ∈ o.files, file.outcome = parser.outcome file.content) ∧
      (¬ (i.options.watch = true ∧ i.options.freshness = .trustTime) →
        (∀ file ∈ o.files,
          fs.modified (i.options.projectRoot.join file.path) = .ok file.modified ∧
            fs.read (i.options.projectRoot.join file.path) = .ok file.content) ∧
        ∀ pool', ∃ o', (i.run fs parser { pool := pool' }).1 = .ok o' ∧
          o'.files = o.files ∧ o'.errors = o.errors) := by
  have hc := hreach.isSound hinj hfits
  obtain ⟨paths, os, hsources, hos, rfl, -, -⟩ := run_cases hrun
  have hfiles := Output.files_ofObserved (n := (Batch.pending [] os).length) hinj
    (hc.observed hfs hos)
  refine ⟨fun file hfile => ?_, fun hmode => ⟨fun file hfile => ?_, fun pool' => ?_⟩⟩
  · rw [hfiles] at hfile
    obtain ⟨seen, -, rfl⟩ := List.mem_map.1 hfile
    rfl
  · rw [hfiles, List.map_map] at hfile
    obtain ⟨o, ho, rfl⟩ := List.mem_map.1 hfile
    obtain ⟨path, -, hobserve⟩ := Oracle.exists_of_mem_observeAll hos ho
    obtain ⟨rfl, hmodified, hread⟩ := Oracle.file_of_observe hmode hobserve
    exact ⟨hmodified, hread⟩
  · -- A pass from scratch is one that starts with sound caches, too.
    have hfresh : Caches.IsSound parser contents ⟨{}, c.entries⟩ :=
      ⟨fun e he => (by cases he), hc.entries⟩
    have hmode' : ¬ ((i.oracle ((Caches.mk {} c.entries).state false pool')).watch = true ∧
        (i.oracle ((Caches.mk {} c.entries).state false pool')).freshness = .trustTime) := hmode
    obtain ⟨os', hos', hsame⟩ := Oracle.exists_observeAll_of_files hmode hmode' hos
    have hfiles' := Output.files_ofObserved (n := (Batch.pending [] os').length) hinj
      (hfresh.observed hfs hos')
    rw [hsame, ← hfiles] at hfiles'
    exact ⟨_, run_of_observed hsources hos', hfiles', congrArg (·.filterMap (·.error?)) hfiles'⟩

end

/-! ### A past -/

theorem Memory.holdsOnly_single {path : Path} {content : Bytes} {modified : FileTime}
    {contents : Set Bytes} (h : content ∈ contents) :
    (single path content modified).fileSystem.HoldsOnly contents := by
  intro other found hread
  obtain ⟨-, rfl⟩ := read_single hread
  exact h

namespace Rerun

/-- The file before it was edited. -/
def before : Bytes := Text.toUtf8 "module A exposing (..)\n\na = 1\n"

/-- The file after it was edited. -/
def after : Bytes := Text.toUtf8 "module A exposing (..)\n\na = 2\n"

/-- The one source, with some content. -/
def project (content : Bytes) : FileSystem :=
  (Memory.single ⟨"/p/src/A.elm"⟩ content (some 3)).fileSystem

def intake : Intake := ⟨{ projectRoot := ⟨"/p"⟩, directories := [⟨"src"⟩], watch := true }⟩

/-- What a first pass leaves. -/
def passed : Caches :=
  let c : Caches := ⟨{}, ⟨⟨"/c"⟩, .absent⟩⟩
  c.after (intake.run (project before) .elm (c.state true {})).2

/-- The caches when the entry was lost and the file was edited. -/
def damaged : Caches :=
  { passed with
    entries := { passed.entries with
      folder := passed.entries.folder.tamper (Digest.hex before) [] } }

/-- The pass over the edited file finds an old entry in the session and a broken
    one on disk. -/
theorem run_agrees_after_damage :
    ∃ o s', intake.run (project after) .elm (damaged.state true {}) = (.ok o, s') ∧
      o.files ≠ [] ∧ (∀ file ∈ o.files, file.outcome = SourceParser.elm.outcome file.content) ∧
      ∃ o', (intake.run (project after) .elm {}).1 = .ok o' ∧ o'.files = o.files := by
  have hdigests : Digest.hex before ≠ Digest.hex after := by decide +kernel
  have hinj : Set.InjOn Digest.hex {before, after} := by
    rintro a (rfl | rfl) b (rfl | rfl) h
    · rfl
    · exact absurd h hdigests
    · exact absurd h.symm hdigests
    · rfl
  have hlengths : ∀ content ∈ [before, after],
      (SourceParser.elm.outcome content).module?.all fun tree =>
        (Entry.of (Digest.hex content) tree).toBytes.length < 2 ^ 64 := by decide +kernel
  have hfits : SourceParser.elm.FitsEntries {before, after} := by
    intro content hcontent tree htree
    have hmem : content ∈ [before, after] := by
      rcases hcontent with rfl | rfl
      · exact List.mem_cons_self
      · exact List.mem_cons_of_mem _ List.mem_cons_self
    have hlength := hlengths content hmem
    rw [htree] at hlength
    simpa [Outcome.module?] using hlength
  have hholds : ∀ content ∈ ({before, after} : Set Bytes),
      (project content).HoldsOnly {before, after} := fun _ => Memory.holdsOnly_single
  have hreach : Reachable .elm {before, after} damaged :=
    .damage _ (.pass intake (project before) true {} (.start ⟨"/c"⟩) (hholds _ (.inl rfl)))
      (Damage.tamper fun e he => by
        have hnone : (Entry.ofBytes []).toOption = none := by decide +kernel
        rw [he] at hnone
        cases hnone)
  have hok : ((intake.run (project after) .elm (damaged.state true {})).1.toOption.map
      (·.files.length)) = some 1 := by decide +kernel
  rcases hrun : intake.run (project after) .elm (damaged.state true {}) with ⟨_ | o, s'⟩
  · rw [hrun] at hok
    cases hok
  · have hne : o.files ≠ [] := by
      intro hnil
      rw [hrun] at hok
      simp [Except.toOption, hnil] at hok
    obtain ⟨houtcome, hfresh⟩ :=
      Intake.run_agrees_with_fresh_run hinj hfits hreach (hholds _ (.inr rfl)) hrun
    obtain ⟨-, hagree⟩ := hfresh (by decide)
    obtain ⟨o', ho', hfiles, -⟩ := hagree {}
    exact ⟨o, s', rfl, hne, houtcome, o', ho', hfiles⟩

end Rerun

end ElmIntake
