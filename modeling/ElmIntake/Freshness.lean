import ElmIntake.Entry.Cache
import ElmIntake.Entry.Folder
import ElmIntake.Options
import ElmIntake.Session

/-! # Deciding what is still good

    An outcome need not be computed again if the session holds it for the same
    path and bytes, or the durable cache for the same digest. In a session of
    many passes the user can ask for less: a file that is not newer than what
    the session knows is then not even read. That is right as long as every
    change of a file makes it newer. -/

namespace ElmIntake

/-- Where the outcome of a content can be taken from. -/
inductive Verdict where
  | sessionHit (entry : SessionEntry)
  | durableHit (tree : Module)
  /-- The content has to be read. -/
  | miss
  deriving Repr, DecidableEq

/-- Is nothing left to be done? -/
def Verdict.isHit : Verdict → Bool
  | miss => false
  | _ => true

/-- What decides: the caches, and what the user asked for. -/
structure Oracle where
  session : Session
  durable : Option (DurableCache EntryFolder)
  watch : Bool
  freshness : Freshness
  deriving Repr

namespace Oracle

/-- The entry that is good for a file of the given time, whatever the file
    holds. There is none if one of the times is unknown. -/
def byTime (o : Oracle) (path : Path) (modified : FileTime) : Option SessionEntry :=
  if o.watch ∧ o.freshness = .trustTime then
    match o.session.get? path with
    | none => none
    | some e =>
      -- An older file is taken for the same one, too.
      match e.modified, modified with
      | some known, some seen => if seen ≤ known then some e else none
      | _, _ => none
  else none

/-- What is good for a file of the given content, whatever its time. -/
def byContent (o : Oracle) (path : Path) (content : Bytes) (hash : String) : Verdict :=
  let stored : Verdict :=
    match o.durable.bind (·.get? hash) with
    | some tree => .durableHit tree
    | none => .miss
  match o.session.get? path with
  | some e => if e.content = content then .sessionHit e else stored
  | none => stored

end Oracle

end ElmIntake
