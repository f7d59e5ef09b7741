import ElmIntake.Entry.Placement
import ElmIntake.Pass

/-! # Passes over what is on disk

    The durable cache lives on a disk, also when the sources do not. Before a
    pass its entries are looked up there, and after the pass they are brought
    back. -/

namespace ElmIntake

namespace IntakeState

/-- The state with the entries that are on disk now. -/
def refreshed (s : IntakeState) (d : Disk) : IntakeState :=
  { s with durable := s.durable.map fun cache =>
      { cache with folder := d.entryFolder cache.dir } }

/-- The disk with the entries of the state. -/
def persisted (s : IntakeState) (d : Disk) : Disk :=
  match s.durable with
  | some cache => d.withDurableCache cache
  | none => d

end IntakeState

namespace Intake

/-- The state before the first pass. -/
def start (i : Intake) (d : Disk) : IntakeState where
  durable :=
    if i.options.useCache then
      some (d.durableCache i.options.cacheDirectory i.options.projectRoot)
    else none
  pool := { maxWorkers := i.options.workers }

/-- Takes in the project, with its durable cache on the disk. -/
def runWithDisk (i : Intake) (fs : FileSystem) (d : Disk) (parser : SourceParser)
    (s : IntakeState) : Except IngestError Output × IntakeState × Disk :=
  let (result, s) := i.run fs parser (s.refreshed d)
  (result, s, s.persisted d)

/-- Forgets every outcome, in the session and on the disk. -/
def clearOnDisk (d : Disk) (s : IntakeState) : Except CacheError Unit × IntakeState × Disk :=
  let (result, s) := clearCache (s.refreshed d)
  (result, s, s.persisted d)

end Intake

end ElmIntake
