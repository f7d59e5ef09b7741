import ElmIntake.Entry.Cache
import ElmIntake.Entry.Folder
import ElmIntake.Proofs.Entry.RoundTrip

/-! # What storing an entry changes

    A **put** either succeeds, and then the file of its digest holds the entry
    and every other entry is as before, or it fails, and then every entry is as
    before. The temporary file never counts, as its name is not that of an
    entry. Looking up modules follows from that by the round trip of entries. -/

namespace ElmIntake

/-! ## Names -/

namespace EntryPlace

theorem toList_entryName (hash : String) :
    (entryName hash).toList = hash.toList ++ ['.', 'b', 'i', 'n'] := by
  simp [entryName, entryExtension, toString]

theorem entryName_inj {h h' : String} : entryName h = entryName h' ↔ h = h' := by
  rw [← String.toList_inj, ← String.toList_inj, toList_entryName, toList_entryName,
    List.append_cancel_right_eq]

/-- Temporary files are never taken for entries. -/
theorem entryName_ne_tempName (h h' : String) (writer : Nat) :
    entryName h ≠ tempName h' writer := by
  intro heq
  have hlast := congrArg (fun name : String => name.toList.reverse.head?) heq
  simp [toList_entryName, tempName, toString] at hlast

end EntryPlace

/-! ## Steps in a folder -/

namespace EntryFolder

open EntryPlace

variable {folder folder' : EntryFolder} {name other : String} {content : Bytes}

theorem read_of_make (h : folder.make = .ok folder') (name : String) :
    folder'.read name = folder.read name := by
  cases folder <;> simp only [make, Except.ok.injEq, reduceCtorEq] at h <;> subst h <;> rfl

theorem read_discard_of_ne (h : other ≠ name) (folder : EntryFolder) :
    (folder.discard name).read other = folder.read other := by
  cases folder with
  | present items =>
    simp only [discard]
    split
    · simp only [read, Listing.get?_erase_of_ne h]
    · rfl
  | _ => rfl

theorem read_of_write (h : folder.write name content = .ok folder') :
    folder'.read name = .ok content ∧ ∀ other ≠ name, folder'.read other = folder.read other := by
  cases folder with
  | present items =>
    simp only [write] at h
    split at h
    · cases h
    · cases h
      refine ⟨by simp [read], fun other hne => ?_⟩
      simp only [read, Listing.get?_put_of_ne hne]
  | _ => cases h

theorem read_of_rename {source target : String} (hsource : folder.read source = .ok content)
    (h : folder.rename source target = .ok folder') :
    folder'.read target = .ok content ∧
      ∀ other, other ≠ source → other ≠ target → folder'.read other = folder.read other := by
  cases folder with
  | present items =>
    simp only [rename] at h
    split at h
    · cases h
    · cases h
    · cases h
    · next item hitem _ _ =>
      cases h
      have hfile : item = .file content := by
        cases item <;> simp_all [read]
      refine ⟨by simp [read, hfile], fun other hs ht => ?_⟩
      simp only [read, Listing.get?_put_of_ne ht, Listing.get?_erase_of_ne hs]
  | _ => cases h

/-- Nothing can be read from a folder that was cleared. -/
theorem read_of_clear (h : folder.clear = .ok folder') (name : String) (content : Bytes) :
    folder'.read name ≠ .ok content := by
  cases folder with
  | unreachable fault =>
    simp only [clear] at h
    split at h <;> cases h
    simp [read]
  | blocked => cases h
  | absent | present _ =>
    cases h
    simp [read]

/-! ## Storing -/

/-- A put that fails leaves every entry as it was. -/
theorem read_of_put_failed {writer : Nat} {e : Entry} {fault : IoFault}
    (h : EntryPlace.put writer e folder = (some fault, folder')) (hash : String) :
    folder'.read (entryName hash) = folder.read (entryName hash) := by
  have htemp := entryName_ne_tempName hash e.contentHash writer
  unfold EntryPlace.put at h
  -- A put can stop before the folder, the temporary file or the entry is there.
  split at h
  · cases h
    rfl
  · next made hmake =>
    have hmade := read_of_make hmake (entryName hash)
    split at h
    · cases h
      exact (read_discard_of_ne htemp made).trans hmade
    · next written hwrite =>
      have hwritten := (read_of_write hwrite).2 _ htemp
      split at h
      · cases h
        exact (read_discard_of_ne htemp written).trans (hwritten.trans hmade)
      · cases h

/-- A put that succeeds leaves its entry under the digest of the entry, and all
    others as they were. -/
theorem read_of_put {writer : Nat} {e : Entry}
    (h : EntryPlace.put writer e folder = (none, folder')) :
    folder'.read (entryName e.contentHash) = .ok e.toBytes ∧
      ∀ hash ≠ e.contentHash, folder'.read (entryName hash) = folder.read (entryName hash) := by
  unfold EntryPlace.put at h
  split at h
  · cases h
  · next made hmake =>
    split at h
    · cases h
    · next written hwrite =>
      obtain ⟨hcontent, hothers⟩ := read_of_write hwrite
      split at h
      · cases h
      · next published hpublish =>
        cases h
        obtain ⟨hentry, hrest⟩ := read_of_rename hcontent hpublish
        refine ⟨hentry, fun hash hne => ?_⟩
        have htemp := entryName_ne_tempName hash e.contentHash writer
        rw [hrest _ htemp fun heq => hne (entryName_inj.1 heq), hothers _ htemp,
          read_of_make hmake]

/-- Bytes written over an entry are what is read of it, unless the folder bars
    the way; no other entry changes. -/
theorem read_tamper (hash : String) (content : Bytes) (folder : EntryFolder) :
    ((folder.tamper hash content).read (entryName hash) = .ok content ∨
      (folder.tamper hash content).read (entryName hash) = folder.read (entryName hash)) ∧
    ∀ other ≠ hash,
      (folder.tamper hash content).read (entryName other) = folder.read (entryName other) := by
  unfold tamper
  cases hmake : folder.make with
  | error fault => exact ⟨.inr rfl, fun _ _ => rfl⟩
  | ok made =>
    cases hwrite : made.write (entryName hash) content with
    | error fault => simp [bind, Except.bind, hwrite, Except.toOption]
    | ok written =>
      obtain ⟨hcontent, hothers⟩ := read_of_write hwrite
      simp only [bind, Except.bind, hwrite, Except.toOption, Option.getD_some]
      refine ⟨.inl hcontent, fun other hne => ?_⟩
      rw [hothers _ fun heq => hne (entryName_inj.1 heq), read_of_make hmake]

/-- A file that was taken for that of another digest is read as that; nothing
    else is read that was not there. -/
theorem read_misname {hash target other : String} {content : Bytes} {folder : EntryFolder}
    (h : (folder.misname hash target).read (entryName other) = .ok content) :
    folder.read (entryName other) = .ok content ∨
      other = target ∧ folder.read (entryName hash) = .ok content := by
  unfold misname at h
  cases folder with
  | present items =>
    simp only [rename] at h
    split at h
    · exact .inl h
    · exact .inl h
    · exact .inl h
    · next item hitem _ _ =>
      simp only [Except.toOption, Option.getD_some, read] at h ⊢
      -- The file was moved: its own entry is gone, and that of the target is new.
      by_cases htarget : other = target
      · subst htarget
        rw [Listing.get?_put_self] at h
        exact .inr ⟨rfl, by rw [hitem]; exact h⟩
      · rw [Listing.get?_put_of_ne fun heq => htarget (entryName_inj.1 heq)] at h
        by_cases hsource : other = hash
        · subst hsource
          rw [Listing.get?_erase_self] at h
          cases h
        · rw [Listing.get?_erase_of_ne fun heq => hsource (entryName_inj.1 heq)] at h
          exact .inl h
  | _ => exact .inl h

end EntryFolder

/-! ## Looking up -/

namespace DurableCache

open EntryPlace

variable {c c' : DurableCache EntryFolder}

/-- An entry is found if its file holds it, in the current version and under
    its own digest. -/
theorem load_eq_some_iff {hash : String} {e : Entry} :
    c.load hash = .ok (some e) ↔
      ∃ content, c.folder.read (entryName hash) = .ok content ∧ Entry.ofBytes content = .ok e ∧
        e.version = Entry.currentVersion ∧ e.contentHash = hash := by
  unfold load
  rw [show EntryPlace.read (entryName hash) c.folder = c.folder.read (entryName hash) from rfl]
  cases hread : c.folder.read (entryName hash) with
  | error fault =>
    dsimp only
    split <;> simp
  | ok content =>
    dsimp only
    cases hentry : Entry.ofBytes content with
    | error fault => simp [hentry]
    | ok found =>
      simp only [hentry, Except.ok.injEq, exists_eq_left']
      by_cases hversion : found.version = Entry.currentVersion
      · by_cases hhash : found.contentHash = hash
        · simp only [hversion, hhash, ne_eq, not_true, if_false, Except.ok.injEq, Option.some.injEq]
          exact ⟨fun h => ⟨h, h ▸ hversion, h ▸ hhash⟩, And.left⟩
        · simp only [hversion, hhash, ne_eq, not_true, not_false_eq_true, if_false, if_true]
          constructor
          · intro h
            cases h
          · rintro ⟨rfl, -, h⟩
            exact absurd h hhash
      · simp only [hversion, ne_eq, not_false_eq_true, if_true]
        constructor
        · intro h
          cases h
        · rintro ⟨rfl, h, -⟩
          exact absurd h hversion

theorem get?_eq_some_iff {hash : String} {tree : Module} :
    c.get? hash = some tree ↔ ∃ e, c.load hash = .ok (some e) ∧ e.tree = tree := by
  unfold get?
  split
  · next e he => simp [he]
  · next h =>
    constructor
    · intro h'
      cases h'
    · rintro ⟨e, he, -⟩
      exact absurd he (h e)

/-- What is found under a digest hangs on the file of that digest alone. -/
theorem get?_congr {hash : String}
    (h : c'.folder.read (entryName hash) = c.folder.read (entryName hash)) :
    c'.get? hash = c.get? hash := by
  ext tree
  simp only [get?_eq_some_iff, load_eq_some_iff, h]

/-- A module that was stored is found, and everything else as before. -/
theorem get?_of_put {writer : Nat} {hash : String} {tree : Module}
    (hsize : (Entry.of hash tree).toBytes.length < 2 ^ 64)
    (h : c.put writer hash tree = (.ok (), c')) :
    c'.get? hash = some tree ∧ ∀ other ≠ hash, c'.get? other = c.get? other := by
  unfold put at h
  split at h
  · next folder hput =>
    cases h
    obtain ⟨hentry, hothers⟩ := EntryFolder.read_of_put hput
    refine ⟨get?_eq_some_iff.2 ⟨.of hash tree, load_eq_some_iff.2 ⟨_, hentry, ?_, rfl, rfl⟩, rfl⟩,
      fun other hne => get?_congr (hothers other hne)⟩
    simpa using Entry.ofBytes_toBytes_append hsize []
  · cases h

/-- A put that fails changes nothing that is found. -/
theorem get?_of_put_failed {writer : Nat} {hash : String} {tree : Module} {error : CacheError}
    (h : c.put writer hash tree = (.error error, c')) (other : String) :
    c'.get? other = c.get? other := by
  unfold put at h
  split at h
  · cases h
  · next fault folder hput =>
    cases h
    exact get?_congr (EntryFolder.read_of_put_failed hput other)

/-- Whatever is found after storing a module was found before, or is that
    module. -/
theorem get?_store {writer : Nat} {hash other : String} {tree found : Module}
    (hsize : (Entry.of hash tree).toBytes.length < 2 ^ 64)
    (h : (c.store writer hash tree).get? other = some found) :
    c.get? other = some found ∨ other = hash ∧ found = tree := by
  unfold store at h
  rcases hput : c.put writer hash tree with ⟨_ | _, c'⟩
  · rw [hput, get?_of_put_failed hput] at h
    exact .inl h
  · obtain ⟨hself, hothers⟩ := get?_of_put hsize hput
    rw [hput] at h
    by_cases heq : other = hash
    · rw [heq, hself, Option.some.injEq] at h
      exact .inr ⟨heq, h.symm⟩
    · rw [hothers other heq] at h
      exact .inl h

end DurableCache

end ElmIntake
