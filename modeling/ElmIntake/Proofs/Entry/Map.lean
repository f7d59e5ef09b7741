import ElmIntake.Proofs.Entry.Tidy

/-! # The durable cache is a finite map

    Whatever is done with a cache, and whatever others do to its folder meanwhile, a
    digest has the module that was last stored under it, unless that was lost since
    (`DurableCache.lastStored`). A put that fails changes nothing, and entries are
    counted as there are digests with a module.

    What is found after one act is told by what was found before it
    (`DurableCache.get?_after`); together with the invariant that the folder is tidy
    (`DurableCache.isTidy_after`) this is carried on over all acts. -/

namespace ElmIntake

/-! ## Acts -/

/-- What is done with a cache, and what others do to its folder. -/
inductive CacheAct where
  | put (writer : Nat) (hash : String) (tree : Module)
  | store (writer : Nat) (hash : String) (tree : Module)
  | get (hash : String)
  | load (hash : String)
  | size
  | clear
  /-- Others take away the file of an entry. -/
  | remove (hash : String)
  /-- Others make a directory of the path of an entry. -/
  | obstruct (hash : String)
  /-- Others put a file in the place of the folder. -/
  | block
  deriving Repr, DecidableEq

namespace CacheAct

/-- Does the act go by the digest of a content? And can the entry that it stores, if any, be
    written at all? -/
def IsValid : CacheAct → Prop
  | put _ hash tree | store _ hash tree =>
    IsDigest hash ∧ (Entry.of hash tree).toBytes.length < 2 ^ 64
  | get hash | load hash | remove hash | obstruct hash => IsDigest hash
  | size | clear | block => True

/-- Does the act keep later ones from storing? -/
def bars : CacheAct → Bool
  | obstruct _ | block => true
  | _ => false

end CacheAct

namespace DurableCache

/-- The cache after an act. -/
def after (c : DurableCache EntryFolder) : CacheAct → DurableCache EntryFolder
  | .put writer hash tree => (c.put writer hash tree).2
  | .store writer hash tree => c.store writer hash tree
  | .get _ | .load _ | .size => c
  | .clear => c.clear.2
  | .remove hash => { c with folder := c.folder.removeEntry hash }
  | .obstruct hash => { c with folder := (c.folder.removeEntry hash).obstruct hash }
  | .block => { c with folder := c.folder.block }

/-- The cache after some acts. -/
def run (c : DurableCache EntryFolder) (acts : List CacheAct) : DurableCache EntryFolder :=
  acts.foldl after c

/-- What a finite map knows of a digest after an act, if it was `known` before: a put that
    succeeds brings its module, and what is cleared, taken away or replaced is lost. -/
def knownAfter (c : DurableCache EntryFolder) (hash : String) (known : Option Module) :
    CacheAct → Option Module
  | .put writer stored tree | .store writer stored tree =>
    if stored = hash ∧ (c.put writer stored tree).1 = .ok () then some tree else known
  | .get _ | .load _ | .size => known
  | .clear => if c.clear.1 = .ok () then none else known
  | .remove lost | .obstruct lost => if lost = hash then none else known
  | .block => none

/-- **The finite map**: the module that was last stored under a digest in some acts, unless
    it was lost since. It is `known` before them. -/
def lastStored (hash : String) (c : DurableCache EntryFolder) (known : Option Module) :
    List CacheAct → Option Module
  | [] => known
  | act :: acts => lastStored hash (c.after act) (c.knownAfter hash known act) acts

/-! ## What is found after an act -/

variable {c : DurableCache EntryFolder} {act : CacheAct} {acts : List CacheAct} {hash : String}

open EntryPlace

theorem get?_eq_none (h : ∀ content, c.folder.read (entryName hash) ≠ .ok content) :
    c.get? hash = none := by
  rw [Option.eq_none_iff_forall_ne_some]
  intro tree htree
  obtain ⟨e, hload, -⟩ := get?_eq_some_iff.1 htree
  obtain ⟨content, hread, -⟩ := load_eq_some_iff.1 hload
  exact h content hread

/-- Putting a module brings that module, or nothing. -/
theorem get?_put (c : DurableCache EntryFolder) (writer : Nat) {stored : String} {tree : Module}
    (hsize : (Entry.of stored tree).toBytes.length < 2 ^ 64) (hash : String) :
    (c.put writer stored tree).2.get? hash =
      if stored = hash ∧ (c.put writer stored tree).1 = .ok () then some tree else c.get? hash := by
  cases hput : c.put writer stored tree with
  | mk result c' =>
    cases result with
    | ok =>
      obtain ⟨hself, hothers⟩ := get?_of_put hsize hput
      by_cases heq : stored = hash
      · rw [if_pos ⟨heq, rfl⟩, ← heq, hself]
      · rw [if_neg fun h => heq h.1, hothers hash (Ne.symm heq)]
    | error e => rw [if_neg fun h => (by cases h.2), get?_of_put_failed hput]

/-- All that clearing can do: it clears the folder, or it changes nothing. -/
theorem clear_cases (c : DurableCache EntryFolder) :
    (∃ folder, c.folder.clear = .ok folder ∧ c.clear = (.ok (), { c with folder })) ∨
      ∃ fault, c.clear = (.error (.io fault), c) := by
  unfold clear
  rw [show EntryPlace.clear c.folder = c.folder.clear from rfl]
  cases c.folder.clear with
  | ok folder => exact .inl ⟨folder, rfl, rfl⟩
  | error fault => exact .inr ⟨fault, rfl⟩

/-- What is lost of an entry is lost of this one only. -/
theorem get?_of_lost {folder : EntryFolder} {lost : String}
    (hself : ∀ content, folder.read (entryName lost) ≠ .ok content)
    (hothers : ∀ other ≠ lost, folder.read (entryName other) = c.folder.read (entryName other)) :
    ({ c with folder } : DurableCache EntryFolder).get? hash =
      if lost = hash then none else c.get? hash := by
  split
  · next heq => exact get?_eq_none (heq ▸ hself)
  · next hne => exact get?_congr (hothers hash (Ne.symm hne))

/-- **What is found after an act.** -/
theorem get?_after (h : act.IsValid) :
    (c.after act).get? hash = c.knownAfter hash (c.get? hash) act := by
  have hremoved : ∀ lost other, other ≠ lost →
      (c.folder.removeEntry lost).read (entryName other) = c.folder.read (entryName other) :=
    fun lost other hne => EntryFolder.read_discard_of_ne (fun heq => hne (entryName_inj.1 heq)) _
  cases act with
  | put writer stored tree => exact get?_put c writer h.2 hash
  | store writer stored tree => exact get?_put c writer h.2 hash
  | get | load | size => rfl
  | clear =>
    unfold after knownAfter
    rcases clear_cases c with ⟨folder, hclear, heq⟩ | ⟨fault, heq⟩
    · rw [heq]
      exact get?_eq_none fun content => EntryFolder.read_of_clear hclear _ content
    · rw [heq]
      rfl
  | remove lost =>
    exact get?_of_lost (EntryFolder.read_discard_self _ _) fun other hne => hremoved lost other hne
  | obstruct lost =>
    refine get?_of_lost (EntryFolder.read_obstruct_self (EntryFolder.read_discard_self _ _)) ?_
    intro other hne
    rw [EntryFolder.read_obstruct_of_ne hne, hremoved lost other hne]
  | block =>
    refine get?_eq_none fun content => ?_
    show c.folder.block.read _ ≠ _
    cases c.folder <;> exact nofun

/-- **What is found after some acts.** -/
theorem get?_run (h : ∀ act ∈ acts, act.IsValid) :
    (c.run acts).get? hash = lastStored hash c (c.get? hash) acts := by
  -- What is found after the first act is what is known before the others.
  induction acts generalizing c with
  | nil => rfl
  | cons act acts ih =>
    have hrest := ih (c := c.after act) fun act hact => h act (List.mem_cons_of_mem _ hact)
    rw [get?_after (h act List.mem_cons_self)] at hrest
    exact hrest

/-! ## What is in the folder after an act -/

/-- A put into a tidy folder brings the entry or changes nothing. -/
theorem put_cases (h : c.folder.IsTidy) (writer : Nat) (hash : String) (tree : Module) :
    ((¬ c.folder.IsUsable ∨ c.folder.item? (entryName hash) = some .other) ∧
      ∃ e, c.put writer hash tree = (.error e, c)) ∨
    (c.folder.IsUsable ∧ c.folder.item? (entryName hash) ≠ some .other) ∧
      c.put writer hash tree = (.ok (), ⟨c.dir,
        .present (c.folder.items.put (entryName hash) (.file (Entry.of hash tree).toBytes))⟩) := by
  unfold put
  rcases EntryFolder.put_cases (e := .of hash tree) (h.item?_tempName hash writer) with
    ⟨hwhy, fault, hput⟩ | ⟨hwhy, hput⟩
  · rw [hput]
    exact .inl ⟨hwhy, .io fault, rfl⟩
  · rw [hput]
    exact .inr ⟨hwhy, rfl⟩

/-- **The step**: an act leaves a tidy folder tidy. -/
theorem isTidy_after (h : c.folder.IsTidy) (hact : act.IsValid) :
    (c.after act).folder.IsTidy := by
  have hput : ∀ writer hash tree, IsDigest hash ∧ (Entry.of hash tree).toBytes.length < 2 ^ 64 →
      (c.put writer hash tree).2.folder.IsTidy := by
    intro writer hash tree ⟨hdigest, hsize⟩
    rcases put_cases h writer hash tree with ⟨-, e, heq⟩ | ⟨-, heq⟩
    · rwa [heq]
    · rw [heq]
      exact h.put hdigest (.inr ⟨tree, hsize, rfl⟩) rfl
  have hremove : ∀ lost, (c.folder.removeEntry lost).IsTidy := by
    intro lost
    rcases EntryFolder.items_discard c.folder (entryName lost) with heq | heq
    · exact ⟨heq ▸ h.distinct, heq ▸ h.entries⟩
    · exact h.erase heq
  cases act with
  | put writer hash tree => exact hput writer hash tree hact
  | store writer hash tree => exact hput writer hash tree hact
  | get | load | size => exact h
  | clear =>
    unfold after
    rcases clear_cases c with ⟨folder, hclear, heq⟩ | ⟨_, heq⟩
    · rw [heq]
      exact .of_items_nil (EntryFolder.items_clear hclear)
    · rwa [heq]
  | remove lost => exact hremove lost
  | obstruct lost =>
    show ((c.folder.removeEntry lost).obstruct lost).IsTidy
    rcases EntryFolder.obstruct_cases (c.folder.removeEntry lost) lost with heq | ⟨-, heq⟩
    · rw [heq]
      exact hremove lost
    · rw [heq]
      exact (hremove lost).put hact (.inl rfl) rfl
  | block => exact .of_items_nil (EntryFolder.items_block c.folder)

theorem isTidy_run (h : c.folder.IsTidy) (hacts : ∀ act ∈ acts, act.IsValid) :
    (c.run acts).folder.IsTidy := by
  induction acts generalizing c with
  | nil => exact h
  | cons act acts ih =>
    exact ih (isTidy_after h (hacts act List.mem_cons_self)) fun act hact =>
      hacts act (List.mem_cons_of_mem _ hact)

/-- An act that bars nothing leaves an open folder open. -/
theorem isOpen_after (h : c.folder.IsTidy) (hopen : c.folder.IsOpen) (hbars : act.bars = false) :
    (c.after act).folder.IsOpen := by
  have hput : ∀ writer hash tree, (c.put writer hash tree).2.folder.IsOpen := by
    intro writer hash tree
    rcases put_cases h writer hash tree with ⟨-, e, heq⟩ | ⟨-, heq⟩
    · rwa [heq]
    · rw [heq]
      exact hopen.put _ _
  cases act with
  | put writer hash tree => exact hput writer hash tree
  | store writer hash tree => exact hput writer hash tree
  | get | load | size => exact hopen
  | clear =>
    unfold after
    rcases clear_cases c with ⟨folder, hclear, heq⟩ | ⟨_, heq⟩
    · rw [heq]
      exact hopen.clear hclear
    · rwa [heq]
  | remove lost => exact hopen.discard _
  | obstruct | block => cases hbars

theorem isOpen_run (h : c.folder.IsTidy) (hopen : c.folder.IsOpen)
    (hacts : ∀ act ∈ acts, act.IsValid) (hbars : ∀ act ∈ acts, act.bars = false) :
    (c.run acts).folder.IsOpen := by
  induction acts generalizing c with
  | nil => exact hopen
  | cons act acts ih =>
    have hact := List.mem_cons_self (a := act) (l := acts)
    exact ih (isTidy_after h (hacts act hact)) (isOpen_after h hopen (hbars act hact))
      (fun act hact => hacts act (List.mem_cons_of_mem _ hact))
      fun act hact => hbars act (List.mem_cons_of_mem _ hact)

/-- In a tidy folder a module is found under each digest that has a file. -/
theorem isSome_get?_iff (h : c.folder.IsTidy) :
    (c.get? hash).isSome ↔ ∃ content, c.folder.item? (entryName hash) = some (.file content) := by
  rw [Option.isSome_iff_exists]
  constructor
  · rintro ⟨tree, htree⟩
    obtain ⟨e, hload, -⟩ := get?_eq_some_iff.1 htree
    obtain ⟨content, hread, -⟩ := load_eq_some_iff.1 hload
    exact ⟨content, EntryFolder.read_eq_ok_iff.1 hread⟩
  · rintro ⟨content, hitem⟩
    rcases h.fitsDigest hitem with hother | ⟨tree, hsize, hentry⟩
    · cases hother
    · cases hentry
      refine ⟨tree, get?_eq_some_iff.2 ⟨.of hash tree, load_eq_some_iff.2
        ⟨_, EntryFolder.read_eq_ok_iff.2 hitem, ?_, rfl, rfl⟩, rfl⟩⟩
      simpa using Entry.ofBytes_toBytes_append hsize []

/-- Entries are counted as there are digests with a module. -/
theorem exists_keys (h : c.folder.IsTidy) (hopen : c.folder.IsOpen) :
    ∃ keys : List String, keys.Nodup ∧ (∀ hash, hash ∈ keys ↔ (c.get? hash).isSome) ∧
      c.size = keys.length := by
  obtain ⟨keys, hkeys⟩ := h.exists_hashes
  refine ⟨keys, ?_, fun hash => ?_, ?_⟩
  · have hdistinct := h.distinct
    rw [← hkeys] at hdistinct
    exact hdistinct.of_map
  -- In an open folder all items are files, and in a tidy one all files are entries.
  · rw [isSome_get?_iff h, ← List.mem_map_of_injective fun _ _ heq => entryName_inj.1 heq, hkeys,
      List.mem_map]
    constructor
    · rintro ⟨⟨name, item⟩, hmem, rfl⟩
      have hitem := (Listing.get?_eq_some_iff h.distinct).2 hmem
      rw [← EntryFolder.item?_eq] at hitem
      cases item with
      | file content => exact ⟨content, hitem⟩
      | other => exact absurd hitem (hopen.files _)
    · rintro ⟨content, hitem⟩
      rw [EntryFolder.item?_eq, Listing.get?_eq_some_iff h.distinct] at hitem
      exact ⟨_, hitem, rfl⟩
  · have hsize : c.size = c.folder.size := rfl
    have hlength := congrArg List.length hkeys
    rw [List.length_map, List.length_map] at hlength
    rw [hsize, h.size_eq, hlength]

/-! ## The map -/

/-- A load gives the entry of the module that is found. -/
theorem load_eq_iff {tree : Module} :
    c.load hash = .ok (some (.of hash tree)) ↔ c.get? hash = some tree := by
  rw [get?_eq_some_iff]
  constructor
  · exact fun hload => ⟨_, hload, rfl⟩
  · rintro ⟨e, hload, rfl⟩
    obtain ⟨content, -, -, hversion, hhash⟩ := load_eq_some_iff.1 hload
    have he : e = .of hash e.tree := by
      rw [Entry.of, ← hversion, ← hhash]
    rw [← he]
    exact hload

/-- **What it means that a cache is a finite map** after some acts, when it came from the
    cache `start`. -/
structure IsMap (start : DurableCache EntryFolder) (acts : List CacheAct)
    (c : DurableCache EntryFolder) : Prop where
  /-- A digest has the module that was last stored under it, unless that was lost since. -/
  get : ∀ hash, c.get? hash = lastStored hash start none acts
  load : ∀ hash tree, c.load hash = .ok (some (.of hash tree)) ↔ c.get? hash = some tree
  /-- A put that fails changes nothing at all. -/
  atomic : ∀ writer hash tree e c', c.put writer hash tree = (.error e, c') → c' = c
  /-- There are no temporary files. -/
  clean : ∀ hash writer, c.folder.item? (tempName hash writer) = none
  /-- To store is to put, whatever becomes of it. -/
  store : ∀ writer hash tree, c.store writer hash tree = (c.put writer hash tree).2
  /-- Unless others have barred something, every put succeeds. -/
  succeeds : start.folder.IsUsable → (∀ act ∈ acts, act.bars = false) →
    ∀ writer hash tree, (c.put writer hash tree).1 = .ok ()
  /-- Then the entries are counted as there are digests with a module. -/
  size : start.folder.IsUsable → (∀ act ∈ acts, act.bars = false) →
    ∃ keys : List String, keys.Nodup ∧ (∀ hash, hash ∈ keys ↔ (c.get? hash).isSome) ∧
      c.size = keys.length

/-- **The durable cache is a finite map**, whatever is done with it and with its folder,
    which is not there at first. -/
theorem isMap_run {start : DurableCache EntryFolder} (hstart : ¬ start.folder.IsPresent)
    (hacts : ∀ act ∈ acts, act.IsValid) : IsMap start acts (start.run acts) := by
  have hempty : start.folder.items = [] := by
    cases hfolder : start.folder with
    | present items => exact absurd (hfolder ▸ trivial) hstart
    | _ => rfl
  have hnothing : ∀ name, start.folder.item? name = none := by
    intro name
    rw [EntryFolder.item?_eq, hempty]
    rfl
  -- Everything but the successes and the counts hangs on the folder being tidy alone.
  have htidy : start.folder.IsTidy := .of_items_nil hempty
  have htidy' : (start.run acts).folder.IsTidy := isTidy_run htidy hacts
  have hopen : start.folder.IsUsable → (∀ act ∈ acts, act.bars = false) →
      (start.run acts).folder.IsOpen := by
    intro husable hbars
    refine isOpen_run htidy ⟨husable, fun name => ?_⟩ hacts hbars
    rw [hnothing]
    exact nofun
  constructor
  case get =>
    intro hash
    have hnone : start.get? hash = none := by
      refine get?_eq_none fun content hread => ?_
      rw [EntryFolder.read_eq_ok_iff, hnothing] at hread
      cases hread
    rw [get?_run hacts, hnone]
  case load => exact fun _ _ => load_eq_iff
  case atomic =>
    intro writer hash tree e c' hput
    rcases put_cases htidy' writer hash tree with ⟨-, _, heq⟩ | ⟨-, heq⟩
    · rw [heq] at hput
      exact (Prod.mk.inj hput).2.symm
    · rw [heq] at hput
      cases hput
  case clean => exact htidy'.item?_tempName
  case store => exact fun _ _ _ => rfl
  case succeeds =>
    intro husable hbars writer hash tree
    have hopen' := hopen husable hbars
    rcases put_cases htidy' writer hash tree with ⟨hwhy, -⟩ | ⟨-, heq⟩
    · rcases hwhy with hunusable | hother
      · exact absurd hopen'.usable hunusable
      · exact absurd hother (hopen'.files _)
    · rw [heq]
  case size => exact fun husable hbars => exists_keys htidy' (hopen husable hbars)

end DurableCache

/-! ### A cache that others meddle with -/

namespace Meddled

/-- There is no folder yet. -/
def start : DurableCache EntryFolder := ⟨⟨"/c"⟩, .absent⟩

/-- The digest of a source. -/
def first : String := Digest.hex (Text.toUtf8 "a = 1\n")

/-- The digest of another one. -/
def second : String := Digest.hex []

/-- A module, in the two places that tell it from itself. -/
def tree (stop : UInt32) : Module := ⟨.implicit, none, [], [], ⟨0, stop, 1, 1⟩⟩

/-- A directory takes the place of the first entry, and the second one is taken away. -/
def disturbed : List CacheAct :=
  [.put 0 first (tree 1), .store 1 second (tree 2), .load first, .obstruct first, .size,
    .remove second]

/-- All is cleared, one module is stored, and then a file takes the place of the folder. -/
def acts : List CacheAct :=
  disturbed ++ [.put 2 first (tree 3), .clear, .put 3 first (tree 4), .get first, .block]

/-- The first module is lost with its file, and cannot be stored before all is cleared. -/
theorem isMap_run_disturbed :
    ¬ start.folder.IsPresent ∧ (∀ act ∈ acts, act.IsValid) ∧
      DurableCache.IsMap start acts (start.run acts) ∧
      (start.run disturbed).get? first = none ∧ (start.run disturbed).size = 1 ∧
      ((start.run disturbed).put 2 first (tree 3)).1 = .error (.io .isDirectory) ∧
      (start.run acts.dropLast).get? first = some (tree 4) ∧
      (start.run acts).get? first = none := by
  have hfirst : IsDigest first := ⟨_, rfl⟩
  have hsecond : IsDigest second := ⟨_, rfl⟩
  have hstart : ¬ start.folder.IsPresent := id
  have hacts : ∀ act ∈ acts, act.IsValid := by
    simp only [acts, disturbed, List.cons_append, List.nil_append, List.forall_mem_cons,
      CacheAct.IsValid, hfirst, hsecond, true_and, List.not_mem_nil, false_implies, implies_true,
      and_true]
    decide +kernel
  refine ⟨hstart, hacts, DurableCache.isMap_run hstart hacts, ?_⟩
  decide +kernel

end Meddled

end ElmIntake
