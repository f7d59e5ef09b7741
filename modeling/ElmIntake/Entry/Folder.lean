import ElmIntake.Entry.Place
import ElmIntake.Listing

/-! # A folder of entries by itself

    The entries of a project as a list of names and what is under them, apart
    from the disk that they are on. The names are those of digests, which hold
    no slashes. -/

namespace ElmIntake

/-- What can be under a name in the folder. -/
inductive FolderItem where
  | file (content : Bytes)
  /-- Anything that is not read as a file, such as a directory. -/
  | other
  deriving Repr, DecidableEq, Inhabited

/-- What is where the folder should be. -/
inductive EntryFolder where
  /-- The way there is barred. -/
  | unreachable (fault : IoFault)
  | absent
  /-- A file is in its place. -/
  | blocked
  | present (items : Listing FolderItem)
  deriving Repr, DecidableEq, Inhabited

namespace EntryFolder

/-! ## Questions -/

/-- The content of a file of the folder. -/
def read (name : String) : EntryFolder → Except IoFault Bytes
  | unreachable fault => .error fault
  | absent => .error .notFound
  | blocked => .error .notDirectory
  | present items =>
    match items.get? name with
    | none => .error .notFound
    | some .other => .error .isDirectory
    | some (.file content) => .ok content

/-- How many entries there are, going by the names of the items. -/
def size : EntryFolder → Nat
  | present items => (items.filter fun item => EntryPlace.isEntryName item.1).length
  | _ => 0

/-! ## Changes -/

/-- Makes the folder if it is not there. -/
def make : EntryFolder → Except IoFault EntryFolder
  | unreachable fault => .error fault
  | absent => .ok (present [])
  | blocked => .error .alreadyExists
  | present items => .ok (present items)

/-- Writes a file in the place of the one that is there, if any. -/
def write (name : String) (content : Bytes) : EntryFolder → Except IoFault EntryFolder
  | unreachable fault => .error fault
  | absent => .error .notFound
  | blocked => .error .notDirectory
  | present items =>
    match items.get? name with
    | some .other => .error .isDirectory
    | _ => .ok (present (items.put name (.file content)))

/-- Gives a file another name, in the place of the file that has it. -/
def rename (source target : String) : EntryFolder → Except IoFault EntryFolder
  | unreachable fault => .error fault
  | absent => .error .notFound
  | blocked => .error .notDirectory
  | present items =>
    match items.get? source, items.get? target with
    | none, _ => .error .notFound
    | some (.file _), some .other => .error .isDirectory
    | some .other, some (.file _) => .error .notDirectory
    -- Like replaces like, or nothing.
    | some item, _ => .ok (present ((items.erase source).put target item))

/-- Takes a file away, if it is there. -/
def discard (name : String) : EntryFolder → EntryFolder
  | present items =>
    match items.get? name with
    | some (.file _) => present (items.erase name)
    | _ => present items
  | folder => folder

/-- Takes away the folder and all that is in it. -/
def clear : EntryFolder → Except IoFault EntryFolder
  | unreachable fault => if fault.isNotFound then .ok (unreachable fault) else .error fault
  | absent => .ok absent
  | blocked => .error .notDirectory
  | present _ => .ok absent

instance : EntryPlace EntryFolder where
  read := read
  size := size
  make := make
  write := write
  rename := rename
  discard := discard
  clear := clear

/-! ## Interference -/

/-- Writes any bytes as the file for a digest. What cannot be done is left
    undone, here and below. -/
def tamper (hash : String) (content : Bytes) (folder : EntryFolder) : EntryFolder :=
  ((folder.make >>= write (EntryPlace.entryName hash) content).toOption).getD folder

/-- Takes the file for one digest to be that for another. -/
def misname (hash target : String) (folder : EntryFolder) : EntryFolder :=
  ((folder.rename (EntryPlace.entryName hash) (EntryPlace.entryName target)).toOption).getD folder

/-- Takes away the file for a digest. -/
def removeEntry (hash : String) (folder : EntryFolder) : EntryFolder :=
  folder.discard (EntryPlace.entryName hash)

/-- Makes a directory where the file for a digest would be. -/
def obstruct (hash : String) (folder : EntryFolder) : EntryFolder :=
  match folder.make with
  | .ok (present items) =>
    match items.get? (EntryPlace.entryName hash) with
    | none => present (items.put (EntryPlace.entryName hash) .other)
    | some _ => present items
  | _ => folder

/-- Puts a file in the place of the folder. -/
def block : EntryFolder → EntryFolder
  | unreachable fault => unreachable fault
  | _ => blocked

end EntryFolder

end ElmIntake
