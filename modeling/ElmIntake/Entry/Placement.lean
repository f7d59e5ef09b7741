import ElmIntake.Digest
import ElmIntake.Entry.Cache
import ElmIntake.Entry.Folder
import ElmIntake.FileSystem.Disk

/-! # Where entries are kept

    Several projects and several builds can share one cache directory: the
    folder of entries lies below it in a directory of the build and in one of
    the project. -/

namespace ElmIntake

/-- A short name for the project at a path, the same for all paths that lead to
    it. -/
def Disk.projectId (d : Disk) (root : Path) : String :=
  let known := (d.canonical root).toOption.getD root
  String.ofList ((Digest.hex (Text.toUtf8 known.text)).toList.take 16)

/-- The path of the folder for a project. -/
def Disk.entryDirectory (d : Disk) (cacheDirectory projectRoot : Path) : Path :=
  (cacheDirectory.child DurableCache.buildName).child (d.projectId projectRoot)

/-! ## Folders on a disk -/

/-- A folder of entries on a disk. A name with slashes in it is followed as the
    path that it is. -/
structure DiskFolder where
  dir : Path
  disk : Disk
  deriving Repr, Inhabited

namespace DiskFolder

/-- The names of what is in the folder. -/
def names (f : DiskFolder) : List String :=
  match f.disk.node f.dir with
  | .ok node => node.entries.map (·.1)
  | .error _ => []

/-- The folder after a change of the disk. -/
def changed (f : DiskFolder) (change : Disk → Except IoFault Disk) : Except IoFault DiskFolder :=
  (change f.disk).map fun disk => { f with disk }

instance : EntryPlace DiskFolder where
  read name f := f.disk.read (f.dir.child name)
  size f := (f.names.filter EntryPlace.isEntryName).length
  make f := f.changed (·.makeDirectories f.dir)
  write name content f := f.changed (·.write (f.dir.child name) content none)
  rename source target f := f.changed (·.rename (f.dir.child source) (f.dir.child target))
  discard name f := ((f.changed (·.removeFile (f.dir.child name))).toOption).getD f
  clear f :=
    match f.disk.removeTree f.dir with
    | .ok disk => .ok { f with disk }
    | .error fault => if fault.isNotFound then .ok f else .error fault

end DiskFolder

namespace Disk

/-! ## From the disk and back -/

/-- What a name in the folder at a path counts as in a folder of entries. -/
def folderItem (d : Disk) (dir : Path) (name : String) : FolderItem :=
  match d.read (dir.child name) with
  | .ok content => .file content
  | .error _ => .other

/-- What is on disk where the folder should be. -/
def entryFolder (d : Disk) (dir : Path) : EntryFolder :=
  match d.node dir with
  | .error .notFound => .absent
  | .error fault => .unreachable fault
  | .ok (.directory entries) =>
    .present (entries.map fun (name, _) => (name, d.folderItem dir name))
  | .ok _ => .blocked

/-- The node for an item of a folder. -/
def itemNode : FolderItem → Node
  | .file content => .file content none
  | .other => .directory []

/-- Brings the disk to where the folder is: what the folder has changed is
    changed on the disk, and nothing else is touched. Where that cannot be done
    the disk stays as it was. -/
def withEntryFolder (d : Disk) (dir : Path) (folder : EntryFolder) : Disk :=
  match folder with
  | .unreachable _ | .blocked => d
  | .absent => (d.removeTree dir).toOption.getD d
  | .present items =>
    match d.makeDirectories dir with
    | .error _ => d
    | .ok made =>
      match made.locate true dir with
      | .error _ => d
      | .ok spot =>
        -- Items that are as they were keep their nodes, with times and all.
        let node (before : Listing Node) (name : String) (item : FolderItem) : Node :=
          match before.get? name with
          | some node => if d.folderItem dir name = item then node else itemNode item
          | none => itemNode item
        let update (before : Listing Node) : Listing Node :=
          items.map fun (name, item) => (name, node before name item)
        { made with root := made.root.editEntries update spot.names }

/-- The durable cache of a project, as it is on disk. -/
def durableCache (d : Disk) (cacheDirectory projectRoot : Path) : DurableCache EntryFolder :=
  let dir := d.entryDirectory cacheDirectory projectRoot
  ⟨dir, d.entryFolder dir⟩

/-- The disk with the entries of a cache on it. -/
def withDurableCache (d : Disk) (c : DurableCache EntryFolder) : Disk :=
  d.withEntryFolder c.dir c.folder

end Disk

end ElmIntake
