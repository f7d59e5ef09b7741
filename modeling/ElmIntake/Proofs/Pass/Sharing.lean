import ElmIntake.Proofs.Pass.Schedule

/-! # Processes that share a folder of entries

    Any number of processes can take in a project at the same time, with one folder of
    entries for all of them. Each pass looks at its sources, and looks up their digests
    among the entries as they are at that moment; then it has the others read, and then
    it stores the modules that came of that, step by step. Between two steps of one
    process the others may do any of theirs, each step can fail, and a process can stop
    for good at any time, in the middle of a temporary file as well.

    What the processes have agreed on is that no two acts of writing have temporary files
    of the same name at the same time. So a temporary file that is complete stays so until
    it is renamed (`Sharing.Inv.written`), and under the name of an entry nothing but
    complete files ever appears.
    That it is the right entry follows from what passes store: the modules of contents
    that were read with success, under the digests of these contents
    (`Sharing.Inv.good`). Which process makes a pass, and which passes follow each other
    in one session, does not matter. -/

namespace ElmIntake

/-! ## One step of one writer -/

namespace StoreTask

variable {t : StoreTask} {folder : EntryFolder} {phase : StorePhase}

/-- **What a step of an act of writing does to the folder.** -/
structure Changes (t : StoreTask) (folder folder' : EntryFolder) : Prop where
  usable : folder'.IsUsable
  /-- The entry's file stays as it was, or is complete. -/
  target : folder'.item? t.target = folder.item? t.target ∨
    folder'.item? t.target = some (.file t.entry.toBytes)
  others : ∀ name, name ≠ t.temp → name ≠ t.target → folder'.item? name = folder.item? name

theorem changes_refl (h : folder.IsUsable) : t.Changes folder folder :=
  ⟨h, .inl rfl, fun _ _ _ => rfl⟩

/-- Anything can be written to the temporary file. -/
theorem changes_of_write {folder' : EntryFolder} {content : Bytes} (hu : folder.IsUsable)
    (h : folder.write t.temp content = .ok folder') :
    t.Changes folder folder' ∧ folder'.item? t.temp = some (.file content) := by
  cases folder with
  | present items =>
    have hpresent : (EntryFolder.present items).IsPresent := trivial
    rcases EntryFolder.write_cases hpresent t.temp content with
      ⟨-, fault, hwrite⟩ | ⟨-, written, hwrite, hpresent, hfile, hrest⟩
    · rw [hwrite] at h
      cases h
    · rw [hwrite] at h
      cases h
      exact ⟨⟨hpresent.isUsable, .inl (hrest _ t.temp_ne_target.symm),
        fun name hne _ => hrest name hne⟩, hfile⟩
  | absent => cases h
  | _ => exact absurd hu id

/-- **The step.** If the temporary file is complete whenever it is taken to be, the entry's
    file is, and the temporary file is complete whenever the next step takes it to be. -/
theorem step_changes (hu : folder.IsUsable)
    (hwritten : phase = .written → folder.item? t.temp = some (.file t.entry.toBytes)) :
    t.Changes folder (t.step phase folder).2 ∧
      ((t.step phase folder).1 = .written →
        (t.step phase folder).2.item? t.temp = some (.file t.entry.toBytes)) := by
  cases phase with
  | waiting =>
    obtain ⟨made, hmake, hpresent, hitems⟩ := EntryFolder.exists_make hu
    have hstep : t.step .waiting folder = (.made, made) := by
      simp only [step]
      rw [show EntryPlace.make folder = _ from hmake]
    rw [hstep]
    exact ⟨⟨hpresent.isUsable, .inl (hitems _), fun name _ _ => hitems name⟩, fun h => by cases h⟩
  | made =>
    cases hwrite : folder.write t.temp t.entry.toBytes with
    | error fault =>
      have hstep : t.step .made folder = (.failed, folder) := by
        simp only [step]
        rw [show EntryPlace.writeTemp t.writer t.entry folder = _ from hwrite]
      rw [hstep]
      exact ⟨changes_refl hu, fun h => by cases h⟩
    | ok written =>
      have hstep : t.step .made folder = (.written, written) := by
        simp only [step]
        rw [show EntryPlace.writeTemp t.writer t.entry folder = _ from hwrite]
      rw [hstep]
      obtain ⟨hchanges, hfile⟩ := changes_of_write hu hwrite
      exact ⟨hchanges, fun _ => hfile⟩
  | written =>
    -- What is renamed is complete, so the entry is complete as well.
    rcases EntryFolder.rename_cases (hwritten rfl) t.target with
      ⟨-, fault, hrename⟩ | ⟨-, renamed, hrename, hpresent, hentry, hrest⟩
    · have hstep : t.step .written folder = (.failed, folder) := by
        simp only [step]
        rw [show EntryPlace.publish t.writer t.entry folder = _ from hrename]
      rw [hstep]
      exact ⟨changes_refl hu, fun h => by cases h⟩
    · have hstep : t.step .written folder = (.done, renamed) := by
        simp only [step]
        rw [show EntryPlace.publish t.writer t.entry folder = _ from hrename]
      rw [hstep]
      exact ⟨⟨hpresent.isUsable, .inr hentry, hrest⟩, fun h => by cases h⟩
  | failed =>
    refine ⟨⟨EntryFolder.isUsable_discard hu t.temp, .inl ?_, fun name hne _ => ?_⟩,
      fun h => by cases h⟩
    · exact EntryFolder.item?_discard_of_ne t.temp_ne_target.symm folder
    · exact EntryFolder.item?_discard_of_ne hne folder
  | done => exact ⟨changes_refl hu, fun h => by cases h⟩

end StoreTask

/-- What becomes of an act of writing whose next step fails. -/
def StorePhase.givenUp : StorePhase → StorePhase
  | waiting | failed | done => done
  | made | written => failed

/-! ## Passes in several processes -/

/-- How far a pass has come. -/
inductive PassStage where
  /-- Some of the sources have been looked at. -/
  | looking (observed : List Observed)
  /-- The modules are being stored. -/
  | storing (acts : List (StoreTask × StorePhase))
  deriving Repr, DecidableEq

namespace PassStage

/-- The acts of writing of a pass. -/
def acts : PassStage → List (StoreTask × StorePhase)
  | looking _ => []
  | storing acts => acts

/-- The acts of writing of several passes. -/
def allActs (passes : List PassStage) : List (StoreTask × StorePhase) := passes.flatMap (·.acts)

variable {before after : List PassStage}

theorem allActs_looking (before after : List PassStage) (observed : List Observed) :
    allActs (before ++ looking observed :: after) = allActs (before ++ after) := by
  simp [allActs, acts]

/-- The acts of one pass, and those of all others. -/
theorem allActs_perm (before after : List PassStage) (pass : PassStage) :
    (allActs (before ++ pass :: after)).Perm (pass.acts ++ allActs (before ++ after)) := by
  simp only [allActs, List.flatMap_append, List.flatMap_cons]
  rw [← List.append_assoc, ← List.append_assoc]
  exact List.perm_append_comm.append_right _

/-- One act of one pass, and all others. -/
theorem allActs_perm_cons (before after : List PassStage)
    (front back : List (StoreTask × StorePhase)) (act : StoreTask × StorePhase) :
    (allActs (before ++ storing (front ++ act :: back) :: after)).Perm
      (act :: (front ++ back ++ allActs (before ++ after))) :=
  (allActs_perm before after _).trans (List.perm_middle.append_right _)

end PassStage

/-- The passes of all processes, with the folder that they share. -/
structure Sharing where
  folder : EntryFolder
  passes : List PassStage
  deriving Repr, DecidableEq

namespace Sharing

open Batch PassStage

/-- **What can happen next.** -/
inductive Step (parser : SourceParser) (contents : Set Bytes) : Sharing → Sharing → Prop where
  /-- Some process starts a pass. -/
  | start {folder : EntryFolder} {passes : List PassStage} :
      Step parser contents ⟨folder, passes⟩ ⟨folder, .looking [] :: passes⟩
  /-- A pass looks at one of its sources, in any order, with any options and any session. If
      it keeps results on disk it sees the entries that are there now. -/
  | look {folder : EntryFolder} {before after : List PassStage} {front back : List Observed}
      (oracle : Oracle) (fs : FileSystem) (root path : Path) (o : Observed)
      (now : ∀ cache, oracle.durable = some cache → cache.folder = folder)
      (holds : fs.HoldsOnly contents) (seen : oracle.observe fs root path = .ok o) :
      Step parser contents ⟨folder, before ++ .looking (front ++ back) :: after⟩
        ⟨folder, before ++ .looking (front ++ o :: back) :: after⟩
  /-- The workers of a pass have read what was pending, and each module that came of it gets
      an act of writing. The temporary files get names that no other one has now. -/
  | send {folder : EntryFolder} {before after : List PassStage} (observed : List Observed)
      (workers : Nat) (shift : Shift) (tasks : List StoreTask)
      (answered : shift.Ends parser workers (requests 0 (pending [] observed)))
      (stored : (tasks.map (·.stored)).Perm
        (stores (outcomes shift.sent 0 (pending [] observed))))
      (distinct : (tasks.map (·.temp)).Nodup)
      (fresh : ∀ t ∈ tasks, ∀ act ∈ allActs (before ++ after), act.1.temp ≠ t.temp) :
      Step parser contents ⟨folder, before ++ .looking observed :: after⟩
        ⟨folder, before ++ .storing (tasks.map (·, .waiting)) :: after⟩
  /-- One of the writers of a pass does its next step. -/
  | act {folder : EntryFolder} {before after : List PassStage}
      {front back : List (StoreTask × StorePhase)} (t : StoreTask) (phase : StorePhase) :
      Step parser contents ⟨folder, before ++ .storing (front ++ (t, phase) :: back) :: after⟩
        ⟨(t.step phase folder).2,
          before ++ .storing (front ++ (t, (t.step phase folder).1) :: back) :: after⟩
  /-- A writer has come some way with its temporary file. -/
  | part {folder folder' : EntryFolder} {before after : List PassStage}
      {front back : List (StoreTask × StorePhase)} (t : StoreTask) (written : Bytes)
      (begun : written <+: t.entry.toBytes) (done : folder.write t.temp written = .ok folder') :
      Step parser contents ⟨folder, before ++ .storing (front ++ (t, .made) :: back) :: after⟩
        ⟨folder', before ++ .storing (front ++ (t, .made) :: back) :: after⟩
  /-- The next step of a writer fails, whatever the reason. -/
  | fault {folder : EntryFolder} {before after : List PassStage}
      {front back : List (StoreTask × StorePhase)} (t : StoreTask) (phase : StorePhase) :
      Step parser contents ⟨folder, before ++ .storing (front ++ (t, phase) :: back) :: after⟩
        ⟨folder, before ++ .storing (front ++ (t, phase.givenUp) :: back) :: after⟩
  /-- A pass is over, or its process stops for good, wherever it is. -/
  | stop {folder : EntryFolder} {before after : List PassStage} (pass : PassStage) :
      Step parser contents ⟨folder, before ++ pass :: after⟩ ⟨folder, before ++ after⟩

end Sharing

/-! ## What is there at every moment -/

/-- Is an item the complete entry, in the current version and under the digest `hash`, of a
    content with this digest that was read with success? -/
def FolderItem.IsEntryOf (parser : SourceParser) (contents : Set Bytes) (hash : String)
    (item : FolderItem) : Prop :=
  ∃ content ∈ contents, Digest.hex content = hash ∧
    ∃ tree, parser.outcome content = .parsed tree ∧ item = .file (Entry.of hash tree).toBytes

/-- Is the module of a content stored, under the digest of that content? -/
def StoreTask.IsGood (parser : SourceParser) (contents : Set Bytes) (t : StoreTask) : Prop :=
  ∃ content ∈ contents, Digest.hex content = t.hash ∧ parser.outcome content = .parsed t.tree

/-- Does a source that has to be read hold one of the contents in play, and go by its digest? -/
def Observed.IsDigested (contents : Set Bytes) (o : Observed) : Prop :=
  ∀ hash, o.hash? = some hash → Digest.hex o.file.content = hash ∧ o.file.content ∈ contents

namespace Sharing

open Batch PassStage

variable {parser : SourceParser} {contents : Set Bytes} {s s' : Sharing} {folder : EntryFolder}
  {before after passes : List PassStage} {front back : List (StoreTask × StorePhase)}
  {t : StoreTask}

/-- Is everything under the names of entries an entry? -/
def HoldsEntries (parser : SourceParser) (contents : Set Bytes) (folder : EntryFolder) : Prop :=
  ∀ hash item, folder.item? (EntryPlace.entryName hash) = some item →
    item.IsEntryOf parser contents hash

/-- **The invariant.** -/
structure Inv (parser : SourceParser) (contents : Set Bytes) (s : Sharing) : Prop where
  usable : s.folder.IsUsable
  entries : HoldsEntries parser contents s.folder
  looked : ∀ observed, .looking observed ∈ s.passes → ∀ o ∈ observed, o.IsDigested contents
  good : ∀ act ∈ allActs s.passes, act.1.IsGood parser contents
  /-- Temporary files that were written are complete. -/
  written : ∀ act ∈ allActs s.passes, act.2 = .written →
    s.folder.item? act.1.temp = some (.file act.1.entry.toBytes)
  distinct : ((allActs s.passes).map (·.1.temp)).Nodup

theorem inv_start (husable : folder.IsUsable) (hentries : HoldsEntries parser contents folder) :
    Inv parser contents ⟨folder, []⟩ where
  usable := husable
  entries := hentries
  looked _ hmem := absurd hmem List.not_mem_nil
  good act hact := absurd (show act ∈ [] from hact) List.not_mem_nil
  written act hact := absurd (show act ∈ [] from hact) List.not_mem_nil
  distinct := List.nodup_nil

/-! ### The steps -/

/-- Passes come and go, or look at their sources, while the folder is as it was. -/
theorem Inv.of_sublist {passes' : List PassStage} (h : Inv parser contents ⟨folder, passes⟩)
    (hacts : (allActs passes').Sublist (allActs passes))
    (hlooked : ∀ observed, .looking observed ∈ passes' → ∀ o ∈ observed, o.IsDigested contents) :
    Inv parser contents ⟨folder, passes'⟩ where
  usable := h.usable
  entries := h.entries
  looked := hlooked
  good := fun act hact => h.good act (hacts.subset hact)
  written := fun act hact => h.written act (hacts.subset hact)
  distinct := (hacts.map _).nodup h.distinct

/-- What a source holds that has to be read was read from a file. -/
theorem isDigested_of_observe {oracle : Oracle} {fs : FileSystem} {root path : Path}
    {o : Observed} (hholds : fs.HoldsOnly contents) (h : oracle.observe fs root path = .ok o) :
    o.IsDigested contents := by
  intro hash hhash
  obtain ⟨modified, -, ⟨e, -, rfl⟩ | ⟨-, content, hread, rfl⟩⟩ := Oracle.observe_cases h
  · cases hhash
  · have heq : hash = Digest.hex content := by
      cases hverdict : oracle.byContent path content (Digest.hex content) with
      | miss =>
        rw [hverdict] at hhash
        exact (Option.some.inj hhash).symm
      | sessionHit e | durableHit tree =>
        rw [hverdict] at hhash
        cases hhash
    exact ⟨heq.symm, hholds _ _ hread⟩

/-- What is stored was read with success. -/
theorem isGood_of_mem_stores {observed : List Observed} {workers : Nat} {shift : Shift}
    {tasks : List StoreTask} (hlooked : ∀ o ∈ observed, o.IsDigested contents)
    (hanswered : shift.Ends parser workers (requests 0 (pending [] observed)))
    (hstored : (tasks.map (·.stored)).Perm (stores (outcomes shift.sent 0 (pending [] observed))))
    (ht : t ∈ tasks) : t.IsGood parser contents := by
  have hmem : t.stored ∈ stores (answers parser (pending [] observed)) := by
    rw [← outcomes_of_perm hanswered.perm]
    exact hstored.subset (List.mem_map_of_mem ht)
  obtain ⟨p, hp, hhash, houtcome⟩ := exists_of_mem_stores hmem
  obtain ⟨o, ho, hasked, hcontent⟩ := exists_of_mem_pending hp
  obtain ⟨hdigest, hin⟩ := hlooked o ho p.hash hasked
  rw [hcontent] at hdigest hin
  exact ⟨p.content, hin, hdigest.trans hhash, houtcome⟩

/-- Every module that is to be stored is that of a content that was read, and the temporary
    files have names of their own. -/
theorem Inv.send {observed : List Observed} {tasks : List StoreTask}
    (h : Inv parser contents ⟨folder, before ++ .looking observed :: after⟩)
    (hgood : ∀ t ∈ tasks, t.IsGood parser contents) (hdistinct : (tasks.map (·.temp)).Nodup)
    (hfresh : ∀ t ∈ tasks, ∀ act ∈ allActs (before ++ after), act.1.temp ≠ t.temp) :
    Inv parser contents ⟨folder, before ++ .storing (tasks.map (·, .waiting)) :: after⟩ := by
  have hperm : (allActs (before ++ .storing (tasks.map (·, .waiting)) :: after)).Perm
      (tasks.map (·, .waiting) ++ allActs (before ++ after)) := allActs_perm before after _
  have hsame : allActs (before ++ .looking observed :: after) = allActs (before ++ after) :=
    allActs_looking before after observed
  constructor
  case usable => exact h.usable
  case entries => exact h.entries
  case looked =>
    intro observed' hmem
    apply h.looked observed'
    simp only [List.mem_append, List.mem_cons, reduceCtorEq, false_or] at hmem ⊢
    exact hmem.imp_right .inr
  case good =>
    intro act hact
    rcases List.mem_append.1 (hperm.subset hact) with hnew | hold
    · obtain ⟨t, ht, rfl⟩ := List.mem_map.1 hnew
      exact hgood t ht
    · exact h.good act (hsame ▸ hold)
  case written =>
    intro act hact hphase
    rcases List.mem_append.1 (hperm.subset hact) with hnew | hold
    · obtain ⟨t, -, rfl⟩ := List.mem_map.1 hnew
      cases hphase
    · exact h.written act (hsame ▸ hold) hphase
  case distinct =>
    have hdistinct' := h.distinct
    rw [hsame] at hdistinct'
    rw [(hperm.map _).nodup_iff, List.map_append, List.map_map, List.nodup_append]
    refine ⟨hdistinct, hdistinct', ?_⟩
    intro name hname other hother heq
    obtain ⟨t, ht, rfl⟩ := List.mem_map.1 hname
    obtain ⟨act, hact, rfl⟩ := List.mem_map.1 hother
    exact hfresh t ht act hact heq.symm

/-- **One writer goes on**, and changes nothing but its two names. -/
theorem Inv.goOn {folder' : EntryFolder} {phase phase' : StorePhase}
    (h : Inv parser contents
      ⟨folder, before ++ .storing (front ++ (t, phase) :: back) :: after⟩)
    (hchanges : t.Changes folder folder')
    (hcomplete : phase' = .written → folder'.item? t.temp = some (.file t.entry.toBytes)) :
    Inv parser contents
      ⟨folder', before ++ .storing (front ++ (t, phase') :: back) :: after⟩ := by
  have hperm := allActs_perm_cons before after front back (t, phase)
  have hperm' := allActs_perm_cons before after front back (t, phase')
  have hgood : t.IsGood parser contents := h.good (t, phase) (hperm.symm.subset (by simp))
  constructor
  case usable => exact hchanges.usable
  case entries =>
    intro hash item hitem
    by_cases hhash : hash = t.hash
    · -- The entry of the writer itself is what it was, or is complete now.
      subst hhash
      rcases hchanges.target with hsame | hentry
      · exact h.entries _ _ (hsame.symm.trans hitem)
      · obtain ⟨content, hin, hdigest, houtcome⟩ := hgood
        refine ⟨content, hin, hdigest, t.tree, houtcome, ?_⟩
        exact Option.some.inj (hitem.symm.trans hentry)
    · have hsame := hchanges.others (EntryPlace.entryName hash)
        (EntryPlace.entryName_ne_tempName _ _ _)
        fun heq => hhash (EntryPlace.entryName_inj.1 heq)
      exact h.entries _ _ (hsame.symm.trans hitem)
  case looked =>
    intro observed hmem
    apply h.looked observed
    simpa using hmem
  case good =>
    intro act hact
    rcases List.mem_cons.1 (hperm'.subset hact) with rfl | hrest
    · exact hgood
    · exact h.good act (hperm.symm.subset (List.mem_cons_of_mem _ hrest))
  case written =>
    intro act hact hphase
    rcases List.mem_cons.1 (hperm'.subset hact) with rfl | hrest
    · exact hcomplete hphase
    · -- No other writer has a temporary file of that name.
      have hne : act.1.temp ≠ t.temp := by
        have hnodup := (hperm.map (·.1.temp)).nodup_iff.1 h.distinct
        rw [List.map_cons, List.nodup_cons] at hnodup
        intro heq
        exact hnodup.1 (heq ▸ List.mem_map_of_mem hrest)
      rw [hchanges.others act.1.temp hne fun heq => EntryPlace.entryName_ne_tempName _ _ _ heq.symm]
      exact h.written act (hperm.symm.subset (List.mem_cons_of_mem _ hrest)) hphase
  case distinct =>
    rw [(hperm'.map _).nodup_iff]
    exact (hperm.map _).nodup_iff.1 h.distinct

/-- **The step.** -/
theorem Inv.step (h : Inv parser contents s) (hstep : Step parser contents s s') :
    Inv parser contents s' := by
  -- Only the steps of a store change the folder; the other events change what passes know or are
  -- about to do.
  cases hstep with
  | @start folder passes =>
    refine h.of_sublist (List.Sublist.refl _) ?_
    intro observed hmem
    rcases List.mem_cons.1 hmem with heq | hmem
    · cases heq
      intro o ho
      exact absurd ho List.not_mem_nil
    · exact h.looked observed hmem
  | @look folder before after front back oracle fs root path o now holds seen =>
    refine h.of_sublist (by rw [allActs_looking, allActs_looking]) ?_
    intro observed hmem
    simp only [List.mem_append, List.mem_cons, PassStage.looking.injEq] at hmem
    by_cases hself : observed = front ++ o :: back
    · subst hself
      -- The source that was looked at is the only new one.
      have hlooked := h.looked (front ++ back) (by simp)
      intro o' ho'
      simp only [List.mem_append, List.mem_cons] at ho'
      rcases ho' with hfront | rfl | hback
      · exact hlooked o' (List.mem_append_left _ hfront)
      · exact isDigested_of_observe holds seen
      · exact hlooked o' (List.mem_append_right _ hback)
    · apply h.looked observed
      simp only [List.mem_append, List.mem_cons]
      rcases hmem with hbefore | hsame | hafter
      · exact .inl hbefore
      · exact absurd hsame hself
      · exact .inr (.inr hafter)
  | @send folder before after observed workers shift tasks answered stored distinct fresh =>
    have hlooked := h.looked observed (by simp)
    exact h.send (fun t ht => isGood_of_mem_stores hlooked answered stored ht) distinct fresh
  | @act folder before after front back t phase =>
    have hwritten : phase = .written → folder.item? t.temp = some (.file t.entry.toBytes) :=
      h.written (t, phase) ((allActs_perm_cons ..).symm.subset List.mem_cons_self)
    obtain ⟨hchanges, hcomplete⟩ := t.step_changes h.usable hwritten
    exact h.goOn hchanges hcomplete
  | @part folder folder' before after front back t written begun done =>
    -- A part of a temporary file never counts as written.
    exact h.goOn (StoreTask.changes_of_write h.usable done).1 nofun
  | @fault folder before after front back t phase =>
    refine h.goOn (StoreTask.changes_refl h.usable) ?_
    cases phase <;> exact nofun
  | @stop folder before after pass =>
    refine h.of_sublist ?_ ?_
    · unfold allActs
      rw [List.flatMap_append, List.flatMap_append, List.flatMap_cons]
      exact (List.sublist_append_right _ _).append_left _
    · intro observed hmem
      apply h.looked observed
      simp only [List.mem_append, List.mem_cons] at hmem ⊢
      exact hmem.imp_right .inr

/-- **The run.** -/
theorem Inv.run (husable : folder.IsUsable) (hentries : HoldsEntries parser contents folder)
    (hrun : Relation.ReflTransGen (Step parser contents) ⟨folder, []⟩ s) :
    Inv parser contents s := by
  induction hrun with
  | refl => exact inv_start husable hentries
  | tail _ hstep ih => exact ih.step hstep

/-! ### What is found -/

/-- In a folder that holds nothing but entries, a look for a digest gives nothing or the
    entry. -/
theorem load_of_holdsEntries (hfits : parser.FitsEntries contents) (husable : folder.IsUsable)
    (hentries : HoldsEntries parser contents folder) (dir : Path) (hash : String) :
    (⟨dir, folder⟩ : DurableCache EntryFolder).load hash = .ok none ∨
      ∃ content ∈ contents, Digest.hex content = hash ∧
        ∃ tree, parser.outcome content = .parsed tree ∧
          (⟨dir, folder⟩ : DurableCache EntryFolder).load hash =
            .ok (some (Entry.of hash tree)) := by
  have hread : EntryPlace.read (EntryPlace.entryName hash) folder = _ :=
    EntryFolder.read_of_isUsable husable
  cases hitem : folder.item? (EntryPlace.entryName hash) with
  | none =>
    rw [hitem] at hread
    left
    unfold DurableCache.load
    rw [hread]
    rfl
  | some item =>
    obtain ⟨content, hin, hdigest, tree, houtcome, rfl⟩ := hentries hash item hitem
    rw [hitem] at hread
    refine .inr ⟨content, hin, hdigest, tree, houtcome, ?_⟩
    rw [DurableCache.load_eq_some_iff]
    refine ⟨_, hread, ?_, rfl, rfl⟩
    have hsize := hfits content hin tree houtcome
    rw [hdigest] at hsize
    simpa using Entry.ofBytes_toBytes_append hsize []

/-- **What the processes find**, at every moment. -/
structure IsSound (parser : SourceParser) (contents : Set Bytes) (s : Sharing) : Prop where
  /-- Every file that has the name of an entry is a complete one, of the current version, of
      its own digest, and of a content that was read with success. -/
  files : HoldsEntries parser contents s.folder
  /-- A look for a digest gives nothing or such an entry, and never an error. -/
  loads : ∀ dir hash, (⟨dir, s.folder⟩ : DurableCache EntryFolder).load hash = .ok none ∨
    ∃ content ∈ contents, Digest.hex content = hash ∧
      ∃ tree, parser.outcome content = .parsed tree ∧
        (⟨dir, s.folder⟩ : DurableCache EntryFolder).load hash = .ok (some (Entry.of hash tree))
  /-- A content that could not be read has no entry, and where one of its digest is there it
      is that of another content. -/
  failures : ∀ content diagnostics, parser.outcome content = .failed diagnostics →
    (∀ other ∈ contents, Digest.hex other = Digest.hex content → other = content) →
    s.folder.item? (EntryPlace.entryName (Digest.hex content)) = none

/-- **Entries are whole at every moment**, and only of contents that were read with success. -/
theorem isSound_of_run (hfits : parser.FitsEntries contents) (husable : folder.IsUsable)
    (hentries : HoldsEntries parser contents folder)
    (hrun : Relation.ReflTransGen (Step parser contents) ⟨folder, []⟩ s) :
    IsSound parser contents s := by
  have hinv := Inv.run husable hentries hrun
  constructor
  case files => exact hinv.entries
  case loads => exact load_of_holdsEntries hfits hinv.usable hinv.entries
  case failures =>
    intro content diagnostics hfailed hunique
    cases hitem : s.folder.item? (EntryPlace.entryName (Digest.hex content)) with
    | none => rfl
    | some item =>
      obtain ⟨other, hin, hdigest, tree, houtcome, -⟩ := hinv.entries _ item hitem
      rw [hunique other hin hdigest, hfailed] at houtcome
      cases houtcome

end Sharing

/-! ### A process that is killed -/

namespace Killed

open Batch

/-- A good source. -/
def good : Bytes := Text.toUtf8 "module A exposing (..)\n"

/-- One that is no text. -/
def bad : Bytes := [0xff]

/-- The contents in play. -/
def contents : Set Bytes := {good, bad}

/-- The module of the good source. -/
def tree : Module :=
  ((SourceParser.elm.outcome good).module?).getD ⟨.implicit, none, [], [], .dummy⟩

/-- A pass that keeps nothing in mind. -/
def oracle : Oracle := ⟨{}, none, false, .trustTime⟩

/-- What every pass sees. -/
def observed : List Observed :=
  [⟨⟨⟨"A.elm"⟩, good, none⟩, .parse (Digest.hex good)⟩,
    ⟨⟨⟨"B.elm"⟩, bad, none⟩, .parse (Digest.hex bad)⟩]

/-- The act of writing of one of the processes. -/
def task (writer : Nat) : StoreTask := ⟨writer, Digest.hex good, tree⟩

/-- What the first process leaves: the beginning of a temporary file. -/
def left : EntryFolder := .present [((task 0).temp, .file ((task 0).entry.toBytes.take 9))]

/-- Some steps of an act of writing with nothing in between. -/
def steps (t : StoreTask) : Nat → StorePhase × EntryFolder → StorePhase × EntryFolder
  | 0, state => state
  | n + 1, state => steps t n (t.step state.1 state.2)

/-- A pass starts and looks at both sources. -/
theorem run_looks (folder : EntryFolder) (passes : List PassStage) :
    Relation.ReflTransGen (Sharing.Step .elm contents) ⟨folder, passes⟩
      ⟨folder, .looking observed :: passes⟩ := by
  have hlook : ∀ (path : Path) (content : Bytes), content ∈ contents →
      (oracle.observe (Memory.single path content none).fileSystem ⟨""⟩ path =
        .ok ⟨⟨path, content, none⟩, .parse (Digest.hex content)⟩) →
      ∀ back, Sharing.Step .elm contents ⟨folder, .looking back :: passes⟩
        ⟨folder, .looking (⟨⟨path, content, none⟩, .parse (Digest.hex content)⟩ :: back) ::
          passes⟩ := by
    intro path content hcontent hobserve back
    exact @Sharing.Step.look .elm contents folder [] passes [] back oracle _ _ _ _
      (by simp [oracle]) (Memory.holdsOnly_single hcontent) hobserve
  refine .head .start (.head (hlook ⟨"B.elm"⟩ bad (.inr rfl) ?_ _)
    (.single (hlook ⟨"A.elm"⟩ good (.inl rfl) ?_ _)))
  · decide +kernel
  · decide +kernel

/-- A pass that has looked at both sources goes on to store the module of the good one. -/
theorem step_send (writer : Nat) (folder : EntryFolder) (before : List PassStage)
    (hbefore : PassStage.allActs before = []) :
    Sharing.Step .elm contents ⟨folder, before ++ [.looking observed]⟩
      ⟨folder, before ++ [.storing [(task writer, .waiting)]]⟩ := by
  obtain ⟨shift, hends, -⟩ := Shift.exists_ends_of_perm .elm Nat.one_pos
    (List.Perm.refl (requests 0 (pending [] observed)))
  have hstores : stores (answers .elm (pending [] observed)) = [(Digest.hex good, tree)] := by
    decide +kernel
  refine @Sharing.Step.send .elm contents folder before [] observed 1 shift [task writer] hends
    ?_ (List.nodup_singleton _) ?_
  · rw [outcomes_of_perm hends.perm, hstores]
    exact List.Perm.refl _
  · rw [List.append_nil, hbefore]
    intro t _ act hact
    exact absurd hact List.not_mem_nil

/-- The first process is killed while it writes a temporary file, and the second one, which
    has looked at the same sources, goes on. -/
theorem run_kill :
    Relation.ReflTransGen (Sharing.Step .elm contents) ⟨.absent, []⟩
      ⟨left, [.looking observed]⟩ := by
  have hlooks := (run_looks .absent []).trans (run_looks .absent [.looking observed])
  have hsend := step_send 0 .absent [.looking observed] rfl
  have hmake := @Sharing.Step.act .elm contents .absent [.looking observed] [] [] [] (task 0)
    .waiting
  have hpart := @Sharing.Step.part .elm contents (.present []) left [.looking observed] [] [] []
    (task 0) ((task 0).entry.toBytes.take 9) (List.take_prefix _ _) rfl
  have hstop := @Sharing.Step.stop .elm contents left [.looking observed] []
    (.storing [(task 0, .made)])
  exact (((hlooks.tail hsend).tail hmake).tail hpart).tail hstop

/-- The state after three more steps, in which the second process stores the module. -/
def final : Sharing :=
  let state := steps (task 1) 3 (.waiting, left)
  ⟨state.2, [.storing [(task 1, state.1)]]⟩

theorem run_final :
    Relation.ReflTransGen (Sharing.Step .elm contents) ⟨left, [.looking observed]⟩ final := by
  have hsteps : ∀ n state, Relation.ReflTransGen (Sharing.Step .elm contents)
      ⟨state.2, [.storing [(task 1, state.1)]]⟩
      ⟨(steps (task 1) n state).2, [.storing [(task 1, (steps (task 1) n state).1)]]⟩ := by
    intro n
    induction n with
    | zero => exact fun _ => .refl
    | succ n ih =>
      intro state
      exact .head (@Sharing.Step.act .elm contents state.2 [] [] [] [] (task 1) state.1) (ih _)
  exact .head (step_send 1 left [] rfl) (hsteps 3 (.waiting, left))

/-- The temporary file that was begun is still there, the entry of the good source is found,
    and the other source has none. -/
theorem isSound_of_run_killed :
    SourceParser.elm.FitsEntries contents ∧ EntryFolder.absent.IsUsable ∧
      Sharing.HoldsEntries .elm contents .absent ∧
      Relation.ReflTransGen (Sharing.Step .elm contents) ⟨.absent, []⟩ final ∧
      Sharing.IsSound .elm contents final ∧ (final.folder.item? (task 0).temp).isSome = true ∧
      (final.folder.item? (EntryPlace.entryName (Digest.hex good))).isSome = true ∧
      final.folder.item? (EntryPlace.entryName (Digest.hex bad)) = none := by
  have hlengths : ∀ content ∈ [good, bad],
      (SourceParser.elm.outcome content).module?.all fun tree =>
        (Entry.of (Digest.hex content) tree).toBytes.length < 2 ^ 64 := by decide +kernel
  have hmem : ∀ content, content ∈ contents → content ∈ [good, bad] := by
    rintro content (rfl | rfl)
    · exact List.mem_cons_self
    · exact List.mem_cons_of_mem _ List.mem_cons_self
  have hfits : SourceParser.elm.FitsEntries contents := by
    intro content hcontent tree htree
    have hlength := hlengths content (hmem content hcontent)
    rw [htree] at hlength
    simpa [Outcome.module?] using hlength
  have hempty : Sharing.HoldsEntries .elm contents .absent := by
    intro hash item hitem
    cases hitem
  have hrun := run_kill.trans run_final
  have husable : EntryFolder.absent.IsUsable := trivial
  have hsound := Sharing.isSound_of_run hfits husable hempty hrun
  have hdigests : Digest.hex good ≠ Digest.hex bad := by decide +kernel
  have hbad : (SourceParser.elm.outcome bad).module? = none := by decide +kernel
  have hnone : final.folder.item? (EntryPlace.entryName (Digest.hex bad)) = none := by
    cases houtcome : SourceParser.elm.outcome bad with
    | parsed tree =>
      rw [houtcome] at hbad
      cases hbad
    | failed diagnostics =>
      apply hsound.failures bad diagnostics houtcome
      rintro other (rfl | rfl) heq
      · exact absurd heq hdigests
      · rfl
  refine ⟨hfits, husable, hempty, hrun, hsound, ?_, ?_, hnone⟩
  · decide +kernel
  · decide +kernel

end Killed

end ElmIntake
