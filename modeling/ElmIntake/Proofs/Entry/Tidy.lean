import ElmIntake.Digest
import ElmIntake.Proofs.Entry.Writers
import ElmIntake.Proofs.Path.Parts

/-! # What is in the folder of entries

    Between two acts all that is in the folder of entries bears the name of an entry,
    and is either the complete entry or no file at all (`EntryFolder.IsTidy`). So there
    is never a temporary file left, and the entries are counted by their names.

    In such a folder a put is one step, whatever it does in between: it puts the entry
    there, or it changes nothing (`EntryFolder.put_cases`). -/

namespace ElmIntake

/-! ## Names of entries -/

namespace Digest

theorem length_hex (content : Bytes) : (hex content).toList.length = 64 := by
  have hwords : ∀ words : List UInt32, (words.flatMap wordBytes).length = 4 * words.length := by
    intro words
    induction words with
    | nil => rfl
    | cons w words ih =>
      rw [List.flatMap_cons, List.length_append, ih, List.length_cons]
      show 4 + 4 * words.length = _
      omega
  have hdigits : ∀ bytes : Bytes, (bytes.flatMap hexByte).length = 2 * bytes.length := by
    intro bytes
    induction bytes with
    | nil => rfl
    | cons b bytes ih =>
      rw [List.flatMap_cons, List.length_append, ih, List.length_cons]
      show 2 + 2 * bytes.length = _
      omega
  rw [hex, String.toList_ofList, hdigits, digest, hwords, Vector.length_toList]

theorem slash_notMem_hex (content : Bytes) : '/' ∉ (hex content).toList := by
  have hdigit : ∀ n < 16, Nat.digitChar n ≠ '/' := by decide
  rw [hex, String.toList_ofList, List.mem_flatMap]
  rintro ⟨b, -, hmem⟩
  have hlt := b.toNat_lt
  rcases List.mem_cons.1 hmem with heq | hmem
  · exact hdigit _ (by omega) heq.symm
  · exact hdigit _ (by omega) (List.mem_singleton.1 hmem).symm

end Digest

/-- Is a text the digest of some content? -/
def IsDigest (hash : String) : Prop := ∃ content, Digest.hex content = hash

/-- A name that is long enough to be no dots is that of its own path. -/
theorem Path.fileName_mk {name : String} (hslash : '/' ∉ name.toList)
    (hlong : 2 < name.toList.length) : (Path.mk name).fileName = some name := by
  have hne : ∀ cs : List Char, cs.length ≤ 2 → name.toList ≠ cs := by
    rintro cs hcs rfl
    omega
  have hsegment : PathPart.ofSegment name.toList = some (.name name) := by
    unfold PathPart.ofSegment
    rw [if_neg (not_or.2 ⟨hne [] (by decide), hne ['.'] (by decide)⟩),
      if_neg (hne ['.', '.'] (by decide)), String.ofList_toList]
  have hparts : (Path.mk name).parts = [.name name] := by
    unfold parts
    rw [segments_of_slash_notMem hslash]
    split
    · next heq => exact absurd (List.cons.inj heq).1 (hne [] (by decide))
    · next heq => exact absurd (List.cons.inj heq).1 (hne ['.'] (by decide))
    · rw [List.filterMap_cons_some hsegment]
      rfl
  unfold fileName
  rw [hparts]
  rfl

namespace EntryPlace

/-- What is stored under the digest of a content counts as an entry. -/
theorem isEntryName_entryName {hash : String} (h : IsDigest hash) :
    isEntryName (entryName hash) = true := by
  obtain ⟨content, rfl⟩ := h
  have hlength := Digest.length_hex content
  have hslash := Digest.slash_notMem_hex content
  generalize Digest.hex content = hash at hlength hslash
  -- A digest has no slash and is not empty, so there is a name before the extension.
  have hname : (Path.mk (entryName hash)).fileName = some (entryName hash) := by
    refine Path.fileName_mk ?_ ?_
    · rw [toList_entryName, List.mem_append]
      rintro (hmem | hmem)
      · exact hslash hmem
      · exact absurd hmem (by decide)
    · rw [toList_entryName, List.length_append, hlength]
      decide
  have hextension : (Path.mk (entryName hash)).extension = some "bin" := by
    unfold Path.extension
    rw [hname]
    dsimp only
    rw [toList_entryName, List.reverse_append]
    cases hreverse : hash.toList.reverse with
    | nil =>
      rw [List.reverse_eq_nil_iff.1 hreverse] at hlength
      cases hlength
    | cons c cs => rfl
  rw [isEntryName, hextension]
  rfl

end EntryPlace

/-! ## What is in the folder -/

/-- Is an item a complete entry for a digest, or no file? -/
def FolderItem.FitsDigest (hash : String) (item : FolderItem) : Prop :=
  item = .other ∨ ∃ tree, (Entry.of hash tree).toBytes.length < 2 ^ 64 ∧
    item = .file (Entry.of hash tree).toBytes

namespace EntryFolder

open EntryPlace

variable {folder : EntryFolder}

/-- What is in the folder, by name. -/
def items : EntryFolder → Listing FolderItem
  | present items => items
  | _ => []

theorem item?_eq (folder : EntryFolder) (name : String) :
    folder.item? name = folder.items.get? name := by
  cases folder <;> rfl

/-! ## Putting in one step -/

/-- A put into a folder that is there, without a temporary file of that name. -/
theorem put_present {items : Listing FolderItem} {writer : Nat} {e : Entry}
    (htemp : items.get? (tempName e.contentHash writer) = none) :
    EntryPlace.put writer e (present items) =
      if items.get? (entryName e.contentHash) = some .other then
        (some .isDirectory, present items)
      else (none, present (items.put (entryName e.contentHash) (.file e.toBytes))) := by
  have hne := entryName_ne_tempName e.contentHash e.contentHash writer
  -- The folder with the temporary file in it.
  obtain ⟨written, hwritten⟩ : ∃ written : Listing FolderItem,
    written = items.put (tempName e.contentHash writer) (.file e.toBytes) := ⟨_, rfl⟩
  have hself : written.get? (tempName e.contentHash writer) = some (.file e.toBytes) := by
    rw [hwritten, Listing.get?_put_self]
  have htarget : written.get? (entryName e.contentHash) = items.get? (entryName e.contentHash) := by
    rw [hwritten, Listing.get?_put_of_ne hne]
  have herase : written.erase (tempName e.contentHash writer) = items := by
    rw [hwritten, Listing.erase_put htemp]
  have hwrite : EntryPlace.writeTemp writer e (present items) = .ok (present written) := by
    show EntryFolder.write _ _ (present items) = _
    unfold write
    dsimp only
    rw [htemp, hwritten]
  have hmake : EntryPlace.make (present items) = .ok (present items) := rfl
  unfold EntryPlace.put
  rw [hmake]
  dsimp only
  rw [hwrite]
  dsimp only
  by_cases hother : items.get? (entryName e.contentHash) = some .other
  · have hpublish : EntryPlace.publish writer e (present written) = .error .isDirectory := by
      show EntryFolder.rename _ _ (present written) = _
      unfold rename
      dsimp only
      rw [hself, htarget, hother]
    have hwithdraw : EntryPlace.withdraw writer e (present written) = present items := by
      show EntryFolder.discard _ (present written) = _
      unfold discard
      dsimp only
      rw [hself, herase]
    rw [hpublish, if_pos hother, hwithdraw]
  · have hpublish : EntryPlace.publish writer e (present written) =
        .ok (present (items.put (entryName e.contentHash) (.file e.toBytes))) := by
      show EntryFolder.rename _ _ (present written) = _
      unfold rename
      dsimp only
      rw [hself, htarget, herase]
      split <;> simp_all
    rw [hpublish, if_neg hother]

/-- **All that a put can do** without a temporary file of its name in its way: nothing,
    because the folder cannot be used or something that is no file bears the name of the
    entry; or it puts the entry into the folder. -/
theorem put_cases {writer : Nat} {e : Entry}
    (htemp : folder.item? (tempName e.contentHash writer) = none) :
    ((¬ folder.IsUsable ∨ folder.item? (entryName e.contentHash) = some .other) ∧
      ∃ fault, EntryPlace.put writer e folder = (some fault, folder)) ∨
    (folder.IsUsable ∧ folder.item? (entryName e.contentHash) ≠ some .other) ∧
      EntryPlace.put writer e folder =
        (none, present (folder.items.put (entryName e.contentHash) (.file e.toBytes))) := by
  cases folder with
  | unreachable fault => exact .inl ⟨.inl id, fault, rfl⟩
  | blocked => exact .inl ⟨.inl id, .alreadyExists, rfl⟩
  | absent =>
    -- The folder is made, and then it is as if it had been there.
    have hmade : EntryPlace.put writer e absent = EntryPlace.put writer e (present []) := rfl
    refine .inr ⟨⟨trivial, nofun⟩, ?_⟩
    rw [hmade, put_present rfl]
    rfl
  | present items =>
    have hunused : items.get? (tempName e.contentHash writer) = none := htemp
    have hput := put_present hunused
    by_cases hother : items.get? (entryName e.contentHash) = some .other
    · rw [if_pos hother] at hput
      exact .inl ⟨.inr hother, .isDirectory, hput⟩
    · rw [if_neg hother] at hput
      exact .inr ⟨⟨trivial, hother⟩, hput⟩

/-! ## What else happens to the folder -/

variable {hash : String}

theorem read_eq_ok_iff {name : String} {content : Bytes} :
    folder.read name = .ok content ↔ folder.item? name = some (.file content) := by
  cases folder with
  | present items =>
    unfold read item?
    dsimp only
    cases items.get? name with
    | none => exact ⟨nofun, nofun⟩
    | some item => cases item <;> simp
  | _ => exact ⟨nofun, nofun⟩

theorem read_discard_self (folder : EntryFolder) (name : String) (content : Bytes) :
    (folder.discard name).read name ≠ .ok content := by
  cases folder with
  | present items =>
    unfold discard
    dsimp only
    split
    · simp [read]
    · next hfile =>
      unfold read
      dsimp only
      split
      · intro h; cases h
      · intro h; cases h
      · next found hfound => exact absurd hfound (hfile found)
  | _ => intro h; cases h

theorem items_discard (folder : EntryFolder) (name : String) :
    (folder.discard name).items = folder.items ∨
      (folder.discard name).items = folder.items.erase name := by
  cases folder with
  | present items =>
    unfold discard
    dsimp only
    split
    · exact .inr rfl
    · exact .inl rfl
  | _ => exact .inl rfl

theorem items_clear {folder' : EntryFolder} (h : folder.clear = .ok folder') :
    folder'.items = [] := by
  cases folder with
  | unreachable fault =>
    simp only [clear] at h
    split at h <;> cases h
    rfl
  | blocked => cases h
  | absent | present _ =>
    cases h
    rfl

theorem items_block (folder : EntryFolder) : folder.block.items = [] := by
  cases folder <;> rfl

/-- A directory takes the place of an entry only if the folder can be used. -/
theorem obstruct_cases (folder : EntryFolder) (hash : String) :
    folder.obstruct hash = folder ∨ folder.IsUsable ∧
      folder.obstruct hash = present (folder.items.put (entryName hash) .other) := by
  cases folder with
  | absent => exact .inr ⟨trivial, rfl⟩
  | present items =>
    unfold obstruct
    simp only [make]
    split
    · exact .inr ⟨trivial, rfl⟩
    · exact .inl rfl
  | _ => exact .inl rfl

theorem read_obstruct_of_ne {other : String} (h : other ≠ hash) (folder : EntryFolder) :
    (folder.obstruct hash).read (entryName other) = folder.read (entryName other) := by
  have hne : entryName other ≠ entryName hash := fun heq => h (entryName_inj.1 heq)
  rcases obstruct_cases folder hash with heq | ⟨husable, heq⟩
  · rw [heq]
  · have hpresent : (present (folder.items.put (entryName hash) .other)).IsUsable := trivial
    have hitem : (present (folder.items.put (entryName hash) .other)).item? (entryName other) =
        folder.item? (entryName other) := by
      rw [item?_eq folder]
      exact Listing.get?_put_of_ne hne
    rw [heq, read_of_isUsable hpresent, read_of_isUsable husable, hitem]

theorem read_obstruct_self (h : ∀ content, folder.read (entryName hash) ≠ .ok content)
    (content : Bytes) : (folder.obstruct hash).read (entryName hash) ≠ .ok content := by
  rcases obstruct_cases folder hash with heq | ⟨-, heq⟩
  · rw [heq]
    exact h content
  · rw [heq]
    unfold read
    dsimp only
    rw [Listing.get?_put_self]
    exact nofun

/-! ## The invariant -/

/-- Does the folder hold nothing but entries, each one complete and under its name, and
    things that are no files in the place of some? -/
structure IsTidy (folder : EntryFolder) : Prop where
  distinct : (folder.items.map (·.1)).Nodup
  entries : ∀ name item, (name, item) ∈ folder.items →
    ∃ hash, IsDigest hash ∧ name = entryName hash ∧ item.FitsDigest hash

namespace IsTidy

variable {folder' : EntryFolder}

theorem of_items_nil (h : folder.items = []) : folder.IsTidy := by
  constructor
  · rw [h]
    exact List.nodup_nil
  · rw [h]
    exact nofun

/-- Items that are taken away leave the others. -/
theorem erase (h : folder.IsTidy) {name : String} (heq : folder'.items = folder.items.erase name) :
    folder'.IsTidy := by
  have hsub : folder'.items.Sublist folder.items := heq ▸ List.filter_sublist
  exact ⟨(hsub.map _).nodup h.distinct,
    fun name item hmem => h.entries name item (hsub.subset hmem)⟩

/-- Something can be put in the place of an entry. -/
theorem put (h : folder.IsTidy) {item : FolderItem} (hdigest : IsDigest hash)
    (hitem : item.FitsDigest hash)
    (heq : folder'.items = folder.items.put (entryName hash) item) : folder'.IsTidy := by
  constructor
  case distinct =>
    rw [heq]
    exact Listing.nodup_put h.distinct
  case entries =>
    intro name found hmem
    rw [heq] at hmem
    rcases Listing.mem_put hmem with hnew | hold
    · cases hnew
      exact ⟨hash, hdigest, rfl, hitem⟩
    · exact h.entries name found hold

/-- No temporary file is left. -/
theorem item?_tempName (h : folder.IsTidy) (hash : String) (writer : Nat) :
    folder.item? (tempName hash writer) = none := by
  rw [item?_eq]
  cases hitem : folder.items.get? (tempName hash writer) with
  | none => rfl
  | some item =>
    obtain ⟨other, -, hname, -⟩ := h.entries _ _ ((Listing.get?_eq_some_iff h.distinct).1 hitem)
    exact absurd hname.symm (entryName_ne_tempName other hash writer)

/-- What is under the name of an entry is the complete entry, or no file. -/
theorem fitsDigest (h : folder.IsTidy) {item : FolderItem}
    (hitem : folder.item? (entryName hash) = some item) : item.FitsDigest hash := by
  rw [item?_eq, Listing.get?_eq_some_iff h.distinct] at hitem
  obtain ⟨other, -, hname, hentry⟩ := h.entries _ item hitem
  rwa [entryName_inj.1 hname]

/-- All items count as entries. -/
theorem size_eq (h : folder.IsTidy) : folder.size = folder.items.length := by
  cases folder with
  | present items =>
    have hall : items.filter (fun item => isEntryName item.1) = items := by
      rw [List.filter_eq_self]
      intro item hmem
      obtain ⟨hash, hdigest, hname, -⟩ := h.entries item.1 item.2 hmem
      rw [hname]
      exact isEntryName_entryName hdigest
    rw [size, hall]
    rfl
  | _ => rfl

/-- The digests of the items. -/
theorem exists_hashes (h : folder.IsTidy) :
    ∃ hashes : List String, hashes.map entryName = folder.items.map (·.1) := by
  have hnames : ∀ item ∈ folder.items, ∃ hash, entryName hash = item.1 := by
    intro item hmem
    obtain ⟨hash, -, hname, -⟩ := h.entries item.1 item.2 hmem
    exact ⟨hash, hname.symm⟩
  generalize folder.items = items at hnames
  induction items with
  | nil => exact ⟨[], rfl⟩
  | cons item items ih =>
    obtain ⟨hash, hname⟩ := hnames item List.mem_cons_self
    obtain ⟨hashes, hrest⟩ := ih fun item hmem => hnames item (List.mem_cons_of_mem _ hmem)
    exact ⟨hash :: hashes, by rw [List.map_cons, List.map_cons, hname, hrest]⟩

end IsTidy

/-! ## Folders that nothing is barred in -/

/-- Can everything be put into the folder? -/
structure IsOpen (folder : EntryFolder) : Prop where
  usable : folder.IsUsable
  files : ∀ name, folder.item? name ≠ some .other

namespace IsOpen

theorem put (h : folder.IsOpen) (name : String) (content : Bytes) :
    (present (folder.items.put name (.file content))).IsOpen := by
  refine ⟨trivial, fun other => ?_⟩
  show (folder.items.put name (.file content)).get? other ≠ _
  by_cases heq : other = name
  · rw [heq, Listing.get?_put_self]
    exact nofun
  · rw [Listing.get?_put_of_ne heq, ← item?_eq]
    exact h.files other

theorem discard (h : folder.IsOpen) (name : String) : (folder.discard name).IsOpen := by
  refine ⟨isUsable_discard h.usable name, fun other => ?_⟩
  have hfiles := h.files other
  rw [item?_eq] at hfiles ⊢
  rcases items_discard folder name with heq | heq
  · rwa [heq]
  · rw [heq]
    by_cases hname : other = name
    · rw [hname, Listing.get?_erase_self]
      exact nofun
    · rwa [Listing.get?_erase_of_ne hname]

theorem clear {folder' : EntryFolder} (h : folder.IsOpen) (hclear : folder.clear = .ok folder') :
    folder'.IsOpen := by
  cases folder with
  | absent | present _ =>
    cases hclear
    exact ⟨trivial, nofun⟩
  | _ => exact absurd h.usable id

end IsOpen

end EntryFolder

end ElmIntake
