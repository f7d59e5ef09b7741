import ElmIntake.Entry.Place

/-! # The durable cache

    Modules of contents that were read before, by the digest of the content. A
    module is found if its entry can be read, is of the current version and is
    the entry of the digest that was asked for; whatever stands in the way of
    that counts as not found. -/

namespace ElmIntake

/-- Why the durable cache could not do what it was asked for. -/
inductive CacheError where
  | io (fault : IoFault)
  | undecodable (fault : DecodeFault)
  | wrongVersion (found : UInt32)
  /-- The file holds the entry of another digest. -/
  | misplaced (path : Path)
  deriving Repr, DecidableEq

namespace CacheError

/-- The wording of an error. -/
def message : CacheError → String
  | io fault => s!"IO error: {fault}"
  | undecodable fault => s!"Serialization error: {fault.message}"
  | wrongVersion found =>
    s!"Cache version mismatch: expected {Entry.currentVersion}, found {found}"
  | misplaced path => s!"Corrupted cache file: {path}"

instance : ToString CacheError := ⟨message⟩

end CacheError

/-- A cache: the path of its folder, and what is there. -/
structure DurableCache (σ : Type) where
  dir : Path
  folder : σ
  deriving Repr, DecidableEq

namespace DurableCache

/-- The name of the directory that keeps the entries of this build apart from
    those of others. -/
def buildName : String := s!"0.1.0-v{Entry.currentVersion}"

variable {σ : Type} [EntryPlace σ]

/-- The path of the file for a digest. -/
def entryPath (c : DurableCache σ) (hash : String) : Path :=
  c.dir.child (EntryPlace.entryName hash)

/-- The entry of a digest, if there is one. -/
def load (c : DurableCache σ) (hash : String) : Except CacheError (Option Entry) :=
  match EntryPlace.read (EntryPlace.entryName hash) c.folder with
  | .error fault => if fault.isNotFound then .ok none else .error (.io fault)
  | .ok content =>
    match Entry.ofBytes content with
    | .error fault => .error (.undecodable fault)
    | .ok e =>
      if e.version ≠ Entry.currentVersion then .error (.wrongVersion e.version)
      else if e.contentHash ≠ hash then .error (.misplaced (c.entryPath hash))
      else .ok (some e)

/-- The module of a digest, if there is an entry that can be used. -/
def get? (c : DurableCache σ) (hash : String) : Option Module :=
  match c.load hash with
  | .ok (some e) => some e.tree
  | _ => none

/-- Stores the module of a digest. -/
def put (c : DurableCache σ) (writer : Nat) (hash : String) (tree : Module) :
    Except CacheError Unit × DurableCache σ :=
  match EntryPlace.put writer (.of hash tree) c.folder with
  | (none, folder) => (.ok (), { c with folder })
  | (some fault, folder) => (.error (.io fault), { c with folder })

/-- Stores the module of a digest if that can be done. -/
def store (c : DurableCache σ) (writer : Nat) (hash : String) (tree : Module) : DurableCache σ :=
  (c.put writer hash tree).2

/-- Takes away every entry. -/
def clear (c : DurableCache σ) : Except CacheError Unit × DurableCache σ :=
  match EntryPlace.clear c.folder with
  | .ok folder => (.ok (), { c with folder })
  | .error fault => (.error (.io fault), c)

/-- How many entries there are. -/
def size (c : DurableCache σ) : Nat := EntryPlace.size c.folder

end DurableCache

end ElmIntake
