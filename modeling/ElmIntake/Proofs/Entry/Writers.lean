import ElmIntake.Proofs.Entry.Storing
import Mathlib.Data.List.Nodup
import Mathlib.Logic.Relation

/-! # Several writers

    Entries are stored by several writers at the same time. An act of writing goes in
    steps: the folder is made, the temporary file is written, it is given the name of
    the entry, and where that fails it is taken away again. Between two steps of one
    writer the others may do any number of theirs.

    A writer touches two names only, those of its temporary file and of its entry
    (`StoreTask.item?_step_of_ne`), and writers of different digests have no name in
    common. So what a writer meets under its names is what was there before all of
    them, and what it leaves can be told from that: either something that is no file
    bars one of the names, and the entry is as it was, or the entry is stored
    (`StoreTask.At`). That is the same in every order. -/

namespace ElmIntake

/-! ## Names of temporary files -/

namespace EntryPlace

theorem reverse_tempName (hash : String) (writer : Nat) :
    (tempName hash writer).toList.reverse =
      ['p', 'm', 't', '.'] ++
        ((Nat.repr writer).toList.reverse ++ '.' :: (hash.toList.reverse ++ ['.'])) := by
  simp [tempName, toString]

theorem ne_dot_of_mem_repr {n : Nat} {c : Char} (h : c ∈ (Nat.repr n).toList.reverse) :
    (c != '.') = true := by
  have hdigits : c ∈ Nat.toDigits 10 n := by simpa [Nat.repr] using h
  have hdigit : c.isDigit = true :=
    Nat.isDigit_of_mem_toDigits (by decide) (Nat.le_refl _) hdigits
  rw [bne_iff_ne]
  rintro rfl
  revert hdigit
  decide

/-- Writers of different digests have different temporary files, however they are
    numbered. -/
theorem hash_eq_of_tempName {h h' : String} {writer writer' : Nat}
    (heq : tempName h writer = tempName h' writer') : h = h' := by
  have hreverse := congrArg (fun name : String => name.toList.reverse) heq
  simp only [reverse_tempName, List.append_cancel_left_eq] at hreverse
  -- A number holds no dot, so from the end the first dot is the one before it.
  have hdot := congrArg (List.dropWhile (· != '.')) hreverse
  rw [List.dropWhile_append_of_pos fun c hc => ne_dot_of_mem_repr hc,
    List.dropWhile_append_of_pos fun c hc => ne_dot_of_mem_repr hc,
    List.dropWhile_cons_of_neg (by decide), List.dropWhile_cons_of_neg (by decide)] at hdot
  rw [← String.toList_inj]
  exact List.reverse_inj.1 (List.append_cancel_right (List.cons.inj hdot).2)

end EntryPlace

/-! ## What is under a name -/

namespace EntryFolder

variable {folder folder' : EntryFolder} {name other source target : String} {content : Bytes}

/-- What is under a name in the folder, if there is one. -/
def item? (name : String) : EntryFolder → Option FolderItem
  | present items => items.get? name
  | _ => none

/-- Is the folder there? -/
def IsPresent : EntryFolder → Prop
  | present _ => True
  | _ => False

/-- Is the folder there, or can it be made? -/
def IsUsable : EntryFolder → Prop
  | absent | present _ => True
  | _ => False

theorem IsPresent.isUsable (h : folder.IsPresent) : folder.IsUsable := by
  cases folder <;> trivial

/-- In a folder that can be used, what is read is what is under the name. -/
theorem read_of_isUsable (h : folder.IsUsable) :
    folder.read name =
      match folder.item? name with
      | none => .error .notFound
      | some .other => .error .isDirectory
      | some (.file content) => .ok content := by
  cases folder with
  | absent | present items => rfl
  | _ => exact absurd h id

theorem make_of_not_isUsable (h : ¬ folder.IsUsable) : ∃ fault, folder.make = .error fault := by
  cases folder with
  | unreachable fault => exact ⟨fault, rfl⟩
  | blocked => exact ⟨_, rfl⟩
  | absent | present items => exact absurd trivial h

theorem exists_make (h : folder.IsUsable) :
    ∃ made, folder.make = .ok made ∧ made.IsPresent ∧
      ∀ name, made.item? name = folder.item? name := by
  cases folder with
  | unreachable fault | blocked => exact absurd h id
  | absent => exact ⟨present [], rfl, trivial, fun _ => rfl⟩
  | present items => exact ⟨present items, rfl, trivial, fun _ => rfl⟩

/-- Only something that is no file keeps a file from being written. -/
theorem write_cases (h : folder.IsPresent) (name : String) (content : Bytes) :
    (folder.item? name = some .other ∧ ∃ fault, folder.write name content = .error fault) ∨
      folder.item? name ≠ some .other ∧
        ∃ written, folder.write name content = .ok written ∧ written.IsPresent ∧
          written.item? name = some (.file content) ∧
          ∀ other ≠ name, written.item? other = folder.item? other := by
  cases folder with
  | present items =>
    by_cases hitem : items.get? name = some .other
    · exact .inl ⟨hitem, .isDirectory, by simp [write, hitem]⟩
    · refine .inr ⟨hitem, present (items.put name (.file content)), ?_, trivial,
        Listing.get?_put_self, fun other hne => Listing.get?_put_of_ne hne⟩
      unfold write
      dsimp only
      split
      · next hother => exact absurd hother hitem
      · rfl
  | _ => exact absurd h id

/-- Only something that is no file keeps a file from being given a name. -/
theorem rename_cases (hsource : folder.item? source = some (.file content)) (target : String) :
    (folder.item? target = some .other ∧ ∃ fault, folder.rename source target = .error fault) ∨
      folder.item? target ≠ some .other ∧
        ∃ renamed, folder.rename source target = .ok renamed ∧ renamed.IsPresent ∧
          renamed.item? target = some (.file content) ∧
          ∀ other, other ≠ source → other ≠ target → renamed.item? other = folder.item? other := by
  cases folder with
  | present items =>
    have hget : items.get? source = some (.file content) := hsource
    by_cases hitem : items.get? target = some .other
    · exact .inl ⟨hitem, .isDirectory, by simp [rename, hget, hitem]⟩
    · refine .inr ⟨hitem, present ((items.erase source).put target (.file content)), ?_, trivial,
        Listing.get?_put_self, ?_⟩
      · unfold rename
        dsimp only
        rw [hget]
        split <;> simp_all
      · intro other hs ht
        show (Listing.put _ _ _).get? other = _
        rw [Listing.get?_put_of_ne ht, Listing.get?_erase_of_ne hs]
        rfl
  | _ => cases hsource

theorem item?_discard_of_ne (h : other ≠ name) (folder : EntryFolder) :
    (folder.discard name).item? other = folder.item? other := by
  cases folder with
  | present items =>
    unfold discard
    dsimp only
    split
    · exact Listing.get?_erase_of_ne h
    · rfl
  | _ => rfl

theorem isUsable_discard (h : folder.IsUsable) (name : String) :
    (folder.discard name).IsUsable := by
  cases folder with
  | present items =>
    unfold discard
    dsimp only
    split <;> trivial
  | absent => trivial
  | _ => exact absurd h id

theorem isPresent_discard (h : folder.IsPresent) (name : String) :
    (folder.discard name).IsPresent := by
  cases folder with
  | present items =>
    unfold discard
    dsimp only
    split <;> trivial
  | _ => exact absurd h id

end EntryFolder

/-! ## Acts of writing -/

/-- A module that is to be stored by an act of writing of its own. -/
structure StoreTask where
  writer : Nat
  hash : String
  tree : Module
  deriving Repr, DecidableEq

/-- How far an act of writing has come. -/
inductive StorePhase where
  | waiting
  /-- The folder is there. -/
  | made
  /-- The temporary file is there. -/
  | written
  /-- Something was in the way, and the temporary file has to be taken away. -/
  | failed
  | done
  deriving Repr, DecidableEq

namespace StoreTask

/-- The entry that is stored. -/
def entry (t : StoreTask) : Entry := .of t.hash t.tree

/-- The name of the temporary file. -/
def temp (t : StoreTask) : String := EntryPlace.tempName t.hash t.writer

/-- The name of the entry's file. -/
def target (t : StoreTask) : String := EntryPlace.entryName t.hash

/-- The next step of an act of writing, with what is in the folder afterwards. -/
def step (t : StoreTask) : StorePhase → EntryFolder → StorePhase × EntryFolder
  | .waiting, folder =>
    match EntryPlace.make folder with
    | .error _ => (.done, folder)
    | .ok made => (.made, made)
  | .made, folder =>
    match EntryPlace.writeTemp t.writer t.entry folder with
    | .error _ => (.failed, folder)
    | .ok written => (.written, written)
  | .written, folder =>
    match EntryPlace.publish t.writer t.entry folder with
    | .error _ => (.failed, folder)
    | .ok published => (.done, published)
  | .failed, folder => (.done, EntryPlace.withdraw t.writer t.entry folder)
  | .done, folder => (.done, folder)

/-- Does something that is no file bear one of the names of the task? -/
def IsBarred (t : StoreTask) (folder : EntryFolder) : Prop :=
  folder.item? t.temp = some .other ∨ folder.item? t.target = some .other

/-- What an act of writing that is in some phase has made of the names of its task, of
    which `base` is the folder before. -/
def At (t : StoreTask) (base : EntryFolder) : StorePhase → EntryFolder → Prop
  | .waiting, folder =>
    folder.item? t.temp = base.item? t.temp ∧ folder.item? t.target = base.item? t.target
  | .made, folder =>
    folder.IsPresent ∧
      folder.item? t.temp = base.item? t.temp ∧ folder.item? t.target = base.item? t.target
  | .written, folder =>
    base.item? t.temp ≠ some .other ∧ folder.item? t.temp = some (.file t.entry.toBytes) ∧
      folder.item? t.target = base.item? t.target
  | .failed, folder => t.IsBarred base ∧ folder.item? t.target = base.item? t.target
  | .done, folder =>
    t.IsBarred base ∧ folder.item? t.target = base.item? t.target ∨
      ¬ t.IsBarred base ∧ folder.item? t.target = some (.file t.entry.toBytes)

variable {t : StoreTask} {base folder : EntryFolder} {phase : StorePhase} {name : String}

theorem temp_ne_target (t : StoreTask) : t.temp ≠ t.target := fun h =>
  EntryPlace.entryName_ne_tempName _ _ _ h.symm

/-! ### One step -/

/-- What a step of a task leaves alone. -/
structure LeavesOthers (t : StoreTask) (folder folder' : EntryFolder) : Prop where
  usable : folder'.IsUsable
  present : folder.IsPresent → folder'.IsPresent
  items : ∀ name, name ≠ t.temp → name ≠ t.target → folder'.item? name = folder.item? name

theorem leavesOthers_refl (hu : folder.IsUsable) : t.LeavesOthers folder folder :=
  ⟨hu, id, fun _ _ _ => rfl⟩

/-- **The step.** The act goes on as it should, and touches its two names only. -/
theorem At.step (h : t.At base phase folder) (hu : folder.IsUsable) :
    t.At base (t.step phase folder).1 (t.step phase folder).2 ∧
      t.LeavesOthers folder (t.step phase folder).2 := by
  -- The phase says what stands under the two names, and so what the next step can come to.
  cases phase with
  | waiting =>
    obtain ⟨htemp, htarget⟩ := h
    obtain ⟨made, hmake, hpresent, hitems⟩ := EntryFolder.exists_make hu
    have hstep : t.step .waiting folder = (.made, made) := by
      show (match folder.make with | .error _ => _ | .ok made => _) = _
      rw [hmake]
    rw [hstep]
    exact ⟨⟨hpresent, (hitems _).trans htemp, (hitems _).trans htarget⟩, hpresent.isUsable,
      fun _ => hpresent, fun name _ _ => hitems name⟩
  | made =>
    obtain ⟨hpresent, htemp, htarget⟩ := h
    have hstep : t.step .made folder =
        match folder.write t.temp t.entry.toBytes with
        | .error _ => (.failed, folder)
        | .ok written => (.written, written) := rfl
    rw [hstep]
    rcases EntryFolder.write_cases hpresent t.temp t.entry.toBytes with
      ⟨hother, fault, hwrite⟩ | ⟨hfree, written, hwrite, hwritten, hfile, hrest⟩
    · rw [hwrite]
      exact ⟨⟨.inl (htemp ▸ hother), htarget⟩, leavesOthers_refl hu⟩
    · rw [hwrite]
      exact ⟨⟨htemp ▸ hfree, hfile, (hrest _ t.temp_ne_target.symm).trans htarget⟩,
        hwritten.isUsable, fun _ => hwritten, fun name hne _ => hrest name hne⟩
  | written =>
    obtain ⟨hfree, hfile, htarget⟩ := h
    have hstep : t.step .written folder =
        match folder.rename t.temp t.target with
        | .error _ => (.failed, folder)
        | .ok published => (.done, published) := rfl
    rw [hstep]
    rcases EntryFolder.rename_cases hfile t.target with
      ⟨hother, fault, hrename⟩ | ⟨hopen, renamed, hrename, hrenamed, hentry, hrest⟩
    · rw [hrename]
      exact ⟨⟨.inr (htarget ▸ hother), htarget⟩, leavesOthers_refl hu⟩
    · rw [hrename]
      -- Nothing stood in the way: the one name could be written, and the other be taken.
      have hclear : ¬ t.IsBarred base := by
        rintro (hother | hother)
        · exact hfree hother
        · exact hopen (htarget.trans hother)
      exact ⟨.inr ⟨hclear, hentry⟩, hrenamed.isUsable, fun _ => hrenamed,
        fun name hne hne' => hrest name hne hne'⟩
  | failed =>
    obtain ⟨hbarred, htarget⟩ := h
    -- Discarding the temporary file leaves the entry as it was.
    have hkept : (folder.discard t.temp).item? t.target = folder.item? t.target :=
      EntryFolder.item?_discard_of_ne t.temp_ne_target.symm folder
    refine ⟨.inl ⟨hbarred, hkept.trans htarget⟩, ?_, ?_, ?_⟩
    · exact EntryFolder.isUsable_discard hu t.temp
    · intro hpresent
      exact EntryFolder.isPresent_discard hpresent t.temp
    · intro name hne _
      exact EntryFolder.item?_discard_of_ne hne folder
  | done => exact ⟨h, leavesOthers_refl hu⟩

/-- Another act is where it was. -/
theorem At.frame {other : StoreTask} {folder' : EntryFolder} (h : t.At base phase folder)
    (hother : other.LeavesOthers folder folder') (hne : other.hash ≠ t.hash) :
    t.At base phase folder' := by
  have htemp : folder'.item? t.temp = folder.item? t.temp := by
    apply hother.items
    · exact fun heq => hne (EntryPlace.hash_eq_of_tempName heq).symm
    · exact fun heq => EntryPlace.entryName_ne_tempName _ _ _ heq.symm
  have htarget : folder'.item? t.target = folder.item? t.target := by
    apply hother.items
    · exact EntryPlace.entryName_ne_tempName _ _ _
    · exact fun heq => hne (EntryPlace.entryName_inj.1 heq).symm
  cases phase with
  | waiting => exact ⟨htemp.trans h.1, htarget.trans h.2⟩
  | made => exact ⟨hother.present h.1, htemp.trans h.2.1, htarget.trans h.2.2⟩
  | written => exact ⟨h.1, htemp.trans h.2.1, htarget.trans h.2.2⟩
  | failed => exact ⟨h.1, htarget.trans h.2⟩
  | done =>
    rcases h with ⟨hbarred, hitem⟩ | ⟨hclear, hitem⟩
    · exact .inl ⟨hbarred, htarget.trans hitem⟩
    · exact .inr ⟨hclear, htarget.trans hitem⟩

end StoreTask

/-! ## All writers together -/

/-- Acts of writing on their way, with what is in the folder. -/
structure Storing where
  folder : EntryFolder
  acts : List (StoreTask × StorePhase)
  deriving Repr, DecidableEq

namespace Storing

/-- One of the writers does its next step. -/
inductive Step : Storing → Storing → Prop where
  | act {folder : EntryFolder} {before after : List (StoreTask × StorePhase)} (t : StoreTask)
      (phase : StorePhase) :
      Step ⟨folder, before ++ (t, phase) :: after⟩
        ⟨(t.step phase folder).2, before ++ (t, (t.step phase folder).1) :: after⟩

/-- The writers can leave this folder, once all of them are done. -/
def Ends (folder : EntryFolder) (tasks : List StoreTask) (folder' : EntryFolder) : Prop :=
  Relation.ReflTransGen Step ⟨folder, tasks.map (·, .waiting)⟩ ⟨folder', tasks.map (·, .done)⟩

variable {base folder folder' : EntryFolder} {tasks : List StoreTask} {s s' : Storing}

/-! ### The invariant -/

/-- What several acts have made of the folder `base`. -/
structure Keeps (base : EntryFolder) (tasks : List StoreTask) (s : Storing) : Prop where
  same : s.acts.map (·.1) = tasks
  usable : s.folder.IsUsable
  acts : ∀ act ∈ s.acts, act.1.At base act.2 s.folder
  others : ∀ name, (∀ t ∈ tasks, name ≠ t.temp ∧ name ≠ t.target) →
    s.folder.item? name = base.item? name

theorem keeps_start (h : base.IsUsable) (tasks : List StoreTask) :
    Keeps base tasks ⟨base, tasks.map (·, .waiting)⟩ where
  same := by
    rw [List.map_map]
    exact List.map_id _
  usable := h
  acts := by
    intro act hact
    obtain ⟨t, -, rfl⟩ := List.mem_map.1 hact
    exact ⟨rfl, rfl⟩
  others := fun _ _ => rfl

/-- **The step.** -/
theorem Keeps.step (hnodup : (tasks.map (·.hash)).Nodup) (h : Keeps base tasks s)
    (hstep : Step s s') : Keeps base tasks s' := by
  cases hstep with
  | @act folder before after t phase =>
    obtain ⟨hsame, husable, hacts, hothers⟩ := h
    have hself : t.At base phase folder := hacts (t, phase) (by simp)
    obtain ⟨hnext, hleaves⟩ := hself.step husable
    -- No other act has the digest of this one.
    have hne : ∀ act ∈ before ++ after, t.hash ≠ act.1.hash := by
      have hperm : tasks.Perm (t :: (before ++ after).map (·.1)) := by
        rw [← hsame]
        exact (List.perm_middle (a := (t, phase))).map Prod.fst
      have hhashes := (hperm.map (·.hash)).nodup_iff.1 hnodup
      rw [List.map_cons, List.nodup_cons] at hhashes
      intro act hact heq
      apply hhashes.1
      rw [heq]
      exact List.mem_map_of_mem (List.mem_map_of_mem hact)
    constructor
    case same => simpa using hsame
    case usable => exact hleaves.usable
    case acts =>
      intro act hact
      rcases List.mem_append.1 hact with hact | hact
      · exact (hacts act (by simp [hact])).frame hleaves (hne act (by simp [hact]))
      · rcases List.mem_cons.1 hact with rfl | hact
        · exact hnext
        · exact (hacts act (by simp [hact])).frame hleaves (hne act (by simp [hact]))
    case others =>
      intro name hname
      have hmem : t ∈ tasks := by
        rw [← hsame]
        simp
      obtain ⟨htemp, htarget⟩ := hname t hmem
      exact (hleaves.items name htemp htarget).trans (hothers name hname)

/-- **The run.** -/
theorem Keeps.run (hnodup : (tasks.map (·.hash)).Nodup) (h : base.IsUsable)
    (hrun : Relation.ReflTransGen Step ⟨base, tasks.map (·, .waiting)⟩ s) : Keeps base tasks s := by
  induction hrun with
  | refl => exact keeps_start h tasks
  | tail _ hstep ih => exact ih.step hnodup hstep

/-- In a folder that can neither be used nor made nothing is done. -/
theorem folder_of_not_isUsable (h : ¬ base.IsUsable)
    (hrun : Relation.ReflTransGen Step ⟨base, tasks.map (·, .waiting)⟩ s) :
    s.folder = base ∧ ∀ act ∈ s.acts, act.2 = .waiting ∨ act.2 = .done := by
  obtain ⟨fault, hmake⟩ := EntryFolder.make_of_not_isUsable h
  induction hrun with
  | refl =>
    refine ⟨rfl, ?_⟩
    intro act hact
    obtain ⟨t, -, rfl⟩ := List.mem_map.1 hact
    exact .inl rfl
  | tail _ hstep ih =>
    cases hstep with
    | @act folder before after t phase =>
      obtain ⟨hfolder, hacts⟩ := ih
      cases hfolder
      -- A task that waits cannot make the folder, and gives up.
      have hdone : t.step phase folder = (.done, folder) := by
        rcases hacts (t, phase) (by simp) with hphase | hphase
        · cases hphase
          show (match folder.make with | .error _ => _ | .ok made => _) = _
          rw [hmake]
        · cases hphase
          rfl
      rw [hdone]
      refine ⟨rfl, ?_⟩
      intro act hact
      rcases List.mem_append.1 hact with hact | hact
      · exact hacts act (by simp [hact])
      · rcases List.mem_cons.1 hact with rfl | hact
        · exact .inr rfl
        · exact hacts act (by simp [hact])

/-! ### The end -/

/-- What is left under the name of an entry is what its task makes of it; under any
    other name it is what was there. -/
theorem Ends.at_done (hnodup : (tasks.map (·.hash)).Nodup) (hu : base.IsUsable)
    (h : Ends base tasks folder) {t : StoreTask} (ht : t ∈ tasks) : t.At base .done folder :=
  (Keeps.run hnodup hu h).acts (t, .done) (List.mem_map_of_mem ht)

theorem Ends.item?_of_others (hnodup : (tasks.map (·.hash)).Nodup) (hu : base.IsUsable)
    (h : Ends base tasks folder) {hash : String} (hhash : ∀ t ∈ tasks, t.hash ≠ hash) :
    folder.item? (EntryPlace.entryName hash) = base.item? (EntryPlace.entryName hash) := by
  apply (Keeps.run hnodup hu h).others
  intro t ht
  constructor
  · exact EntryPlace.entryName_ne_tempName _ _ _
  · exact fun heq => hhash t ht (EntryPlace.entryName_inj.1 heq).symm

end Storing

/-- Do only files bear the names of temporary files? -/
def EntryFolder.IsPlain (folder : EntryFolder) : Prop :=
  ∀ hash writer, folder.item? (EntryPlace.tempName hash writer) ≠ some .other

namespace StoreTask

/-- What is stored, apart from who does it. -/
def stored (t : StoreTask) : String × Module := (t.hash, t.tree)

variable {t t' : StoreTask} {base folder folder' : EntryFolder}

/-- Two acts that store the same leave the same, unless something bars only one of
    them. -/
theorem item?_eq_of_at_done (hstored : t'.stored = t.stored)
    (hbarred : t'.IsBarred base ↔ t.IsBarred base) (h : t.At base .done folder)
    (h' : t'.At base .done folder') : folder'.item? t.target = folder.item? t.target := by
  obtain ⟨hhash, htree⟩ := Prod.mk.inj hstored
  have htarget : t'.target = t.target := congrArg EntryPlace.entryName hhash
  have hentry : t'.entry = t.entry := congrArg₂ Entry.of hhash htree
  unfold At at h h'
  rw [htarget, hentry, hbarred] at h'
  rcases h with ⟨hyes, hitem⟩ | ⟨hno, hitem⟩
  · rcases h' with ⟨-, hitem'⟩ | ⟨hno', -⟩
    · rw [hitem, hitem']
    · exact absurd hyes hno'
  · rcases h' with ⟨hyes', -⟩ | ⟨-, hitem'⟩
    · exact absurd hyes' hno
    · rw [hitem, hitem']

/-- Where only files bear the names of temporary files, the number of the writer makes
    no difference. -/
theorem isBarred_iff_of_isPlain (h : base.IsPlain) (t : StoreTask) :
    t.IsBarred base ↔ base.item? t.target = some .other := by
  unfold IsBarred
  constructor
  · rintro (htemp | htarget)
    · exact absurd htemp (h _ _)
    · exact htarget
  · exact .inr

end StoreTask

namespace Storing

variable {base folder folder' : EntryFolder} {tasks tasks' : List StoreTask}

/-- **The order of the steps of several writers does not matter.** Whatever the order in
    which the same modules are stored, each entry reads the same in the end, if the
    writers have the same numbers, or only files bear the names of temporary files. -/
theorem Ends.read_eq (hnodup : (tasks.map (·.hash)).Nodup)
    (hstored : (tasks'.map (·.stored)).Perm (tasks.map (·.stored)))
    (hnumbers : tasks'.Perm tasks ∨ base.IsPlain) (h : Ends base tasks folder)
    (h' : Ends base tasks' folder') (hash : String) :
    folder'.read (EntryPlace.entryName hash) = folder.read (EntryPlace.entryName hash) := by
  by_cases hu : base.IsUsable
  · have hhashes : (tasks'.map (·.hash)).Perm (tasks.map (·.hash)) := by
      have hmap := hstored.map Prod.fst
      rw [List.map_map, List.map_map] at hmap
      exact hmap
    have hnodup' : (tasks'.map (·.hash)).Nodup := hhashes.nodup_iff.2 hnodup
    have hitem : folder'.item? (EntryPlace.entryName hash) =
        folder.item? (EntryPlace.entryName hash) := by
      -- An entry that no task stores is as it was before; any other is what its task left.
      by_cases hmem : ∃ t ∈ tasks, t.hash = hash
      · obtain ⟨t, ht, rfl⟩ := hmem
        obtain ⟨t', ht', hsame, hbarred⟩ : ∃ t' ∈ tasks', t'.stored = t.stored ∧
            (t'.IsBarred base ↔ t.IsBarred base) := by
          -- Either the very same task is among the others, or its number does not matter.
          rcases hnumbers with hperm | hplain
          · exact ⟨t, hperm.symm.subset ht, rfl, Iff.rfl⟩
          · obtain ⟨t', ht', hsame⟩ :=
              List.mem_map.1 (hstored.symm.subset (List.mem_map_of_mem ht))
            have htarget : t'.target = t.target :=
              congrArg EntryPlace.entryName (Prod.mk.inj hsame).1
            refine ⟨t', ht', hsame, ?_⟩
            rw [StoreTask.isBarred_iff_of_isPlain hplain,
              StoreTask.isBarred_iff_of_isPlain hplain, htarget]
        exact StoreTask.item?_eq_of_at_done hsame hbarred (h.at_done hnodup hu ht)
          (h'.at_done hnodup' hu ht')
      · have hnone : ∀ t ∈ tasks, t.hash ≠ hash := fun t ht heq => hmem ⟨t, ht, heq⟩
        have hnone' : ∀ t ∈ tasks', t.hash ≠ hash := by
          intro t ht heq
          obtain ⟨other, hother, hsame⟩ := List.mem_map.1 (hhashes.subset (List.mem_map_of_mem ht))
          exact hnone other hother (hsame.trans heq)
        rw [h.item?_of_others hnodup hu hnone, h'.item?_of_others hnodup' hu hnone']
    rw [EntryFolder.read_of_isUsable (Keeps.run hnodup hu h).usable,
      EntryFolder.read_of_isUsable (Keeps.run hnodup' hu h').usable, hitem]
  · -- Nobody writes anything in a folder that cannot be used.
    have hsame : folder = base := (folder_of_not_isUsable hu h).1
    have hsame' : folder' = base := (folder_of_not_isUsable hu h').1
    rw [hsame, hsame']

/-! ### One after the other -/

/-- The steps of one act in a row are a put. -/
theorem run_put (folder : EntryFolder) (before after : List (StoreTask × StorePhase))
    (t : StoreTask) :
    Relation.ReflTransGen Step ⟨folder, before ++ (t, .waiting) :: after⟩
      ⟨(EntryPlace.put t.writer t.entry folder).2, before ++ (t, .done) :: after⟩ := by
  have hstep : ∀ phase folder phase' folder', t.step phase folder = (phase', folder') →
      Step ⟨folder, before ++ (t, phase) :: after⟩ ⟨folder', before ++ (t, phase') :: after⟩ := by
    intro phase folder phase' folder' heq
    have hact := @Step.act folder before after t phase
    rwa [heq] at hact
  unfold EntryPlace.put
  cases hmake : EntryPlace.make folder with
  | error fault => exact .single (hstep _ _ _ _ (by simp [StoreTask.step, hmake]))
  | ok made =>
    refine .head (hstep _ _ .made made (by simp [StoreTask.step, hmake])) ?_
    dsimp only
    cases hwrite : EntryPlace.writeTemp t.writer t.entry made with
    | error fault =>
      refine .head (hstep _ _ .failed made (by simp [StoreTask.step, hwrite])) ?_
      exact .single (hstep _ _ _ _ rfl)
    | ok written =>
      refine .head (hstep _ _ .written written (by simp [StoreTask.step, hwrite])) ?_
      dsimp only
      cases hpublish : EntryPlace.publish t.writer t.entry written with
      | error fault =>
        refine .head (hstep _ _ .failed written (by simp [StoreTask.step, hpublish])) ?_
        exact .single (hstep _ _ _ _ rfl)
      | ok published => exact .single (hstep _ _ _ _ (by simp [StoreTask.step, hpublish]))

/-- The folder after some tasks, one after the other. -/
def inOrder (folder : EntryFolder) (tasks : List StoreTask) : EntryFolder :=
  tasks.foldl (fun folder t => (EntryPlace.put t.writer t.entry folder).2) folder

/-- Storing one module after the other is one of the orders. -/
theorem ends_inOrder (folder : EntryFolder) (tasks : List StoreTask) :
    Ends folder tasks (inOrder folder tasks) := by
  have hrun : ∀ (tasks : List StoreTask) (before : List (StoreTask × StorePhase))
      (folder : EntryFolder), Relation.ReflTransGen Step
        ⟨folder, before ++ tasks.map (·, .waiting)⟩
        ⟨inOrder folder tasks, before ++ tasks.map (·, .done)⟩ := by
    intro tasks
    induction tasks with
    | nil => exact fun _ _ => .refl
    | cons t tasks ih =>
      intro before folder
      have hrest := ih (before ++ [(t, .done)]) (EntryPlace.put t.writer t.entry folder).2
      rw [List.append_assoc, List.append_assoc] at hrest
      exact (run_put folder before (tasks.map (·, .waiting)) t).trans hrest
  exact hrun tasks [] folder

end Storing

end ElmIntake
