import ElmIntake.Digest
import ElmIntake.Discovery
import ElmIntake.Freshness
import ElmIntake.Manifest
import ElmIntake.Pool

/-! # Passes

    A **pass** takes in a project once: it finds the sources, looks at each of
    them, has those read whose outcome is not known, and puts everything
    together in the order in which the sources were found. Contents that are the
    same are read once. A pass that fails changes nothing. -/

namespace ElmIntake

/-! ## Results -/

/-- A source as it was seen. -/
structure SourceFile where
  /-- The path as seen from the project root. -/
  path : Path
  content : Bytes
  modified : FileTime
  deriving Repr, DecidableEq

/-- A source with what came of it. -/
structure IngestedFile extends SourceFile where
  outcome : Outcome
  deriving Repr, DecidableEq

/-- How much was done in a pass. -/
structure Stats where
  files : Nat
  sessionHits : Nat
  durableHits : Nat
  /-- How many contents were read. -/
  dispatched : Nat
  failures : Nat
  deriving Repr, DecidableEq

/-- The statistics in one line. -/
protected def Stats.toString (s : Stats) : String :=
  s!"{s.files} files: {s.sessionHits} session hits, {s.durableHits} durable hits, " ++
    s!"{s.dispatched} parsed, {s.failures} failed"

instance : ToString Stats := ⟨Stats.toString⟩

/-- What a pass gives. -/
structure Output where
  files : List IngestedFile
  /-- The sources that could not be read, in the order of the files. -/
  errors : List IngestError
  stats : Stats
  deriving Repr, DecidableEq

namespace Output

/-- Could some source not be read? -/
def hasErrors (o : Output) : Bool := !o.errors.isEmpty

/-- The modules with their paths. -/
def modules (o : Output) : List (Path × Module) :=
  o.files.filterMap fun file => file.outcome.module?.map (file.path, ·)

end Output

/-! ## Looking at the sources -/

/-- Where the outcome of a source comes from. -/
inductive Resolution where
  | session (outcome : Outcome)
  | durable (tree : Module)
  /-- The content of this digest has to be read. -/
  | parse (hash : String)
  deriving Repr, DecidableEq

/-- A source that was looked at. -/
structure Observed where
  file : SourceFile
  resolution : Resolution
  deriving Repr, DecidableEq

namespace Observed

/-- The digest of the content, if it has to be read. -/
def hash? (o : Observed) : Option String :=
  match o.resolution with
  | .parse hash => some hash
  | _ => none

end Observed

/-- Looks at the source at a path seen from the project root. It is read after
    it was asked for its time. -/
def Oracle.observe (oracle : Oracle) (fs : FileSystem) (projectRoot path : Path) :
    Except IngestError Observed :=
  let place := projectRoot.join path
  match fs.modified place with
  | .error fault => .error (.fileRead path fault)
  | .ok modified =>
    match oracle.byTime path modified with
    | some e => .ok ⟨⟨path, e.content, e.modified⟩, .session e.outcome⟩
    | none =>
      match fs.read place with
      | .error fault => .error (.fileRead path fault)
      | .ok content =>
        let hash := Digest.hex content
        let resolution : Resolution :=
          match oracle.byContent path content hash with
          | .sessionHit e => .session e.outcome
          | .durableHit tree => .durable tree
          | .miss => .parse hash
        .ok ⟨⟨path, content, modified⟩, resolution⟩

/-- Looks at some sources, up to the first that cannot be looked at. -/
def Oracle.observeAll (oracle : Oracle) (fs : FileSystem) (projectRoot : Path) :
    List Path → Except IngestError (List Observed)
  | [] => .ok []
  | path :: paths =>
    match oracle.observe fs projectRoot path with
    | .error e => .error e
    | .ok o => (oracle.observeAll fs projectRoot paths).map (o :: ·)

/-! ## Having the others read -/

/-- A content to be read, under its digest. -/
structure Pending where
  hash : String
  content : Bytes
  deriving Repr, DecidableEq

namespace Batch

/-- The contents to be read, each digest where it comes first; `seen` are the
    digests that have come before. -/
def pending (seen : List String) : List Observed → List Pending
  | [] => []
  | o :: os =>
    match o.hash? with
    | none => pending seen os
    | some hash =>
      -- Contents of one digest are taken for the same, and read once.
      if seen.contains hash then pending seen os
      else ⟨hash, o.file.content⟩ :: pending (hash :: seen) os

/-- The requests for some contents, which are numbered from `id` on. -/
def requests (id : Nat) : List Pending → List ParseRequest
  | [] => []
  | p :: ps => ⟨id, p.content⟩ :: requests (id + 1) ps

/-- The outcomes by digest, taken from responses in any order. -/
def outcomes (responses : List ParseResponse) (id : Nat) : List Pending → List (String × Outcome)
  | [] => []
  | p :: ps =>
    match responses.find? (·.id == id) with
    | some response => (p.hash, response.outcome) :: outcomes responses (id + 1) ps
    | none => outcomes responses (id + 1) ps

/-- The modules by digest that are to be stored. -/
def stores (outcomes : List (String × Outcome)) : List (String × Module) :=
  outcomes.filterMap fun (hash, outcome) => outcome.module?.map (hash, ·)

/-- Stores modules, in the given order, by acts of writing that are numbered from
    `writer` on. -/
def storeAll (writer : Nat) (cache : DurableCache EntryFolder) :
    List (String × Module) → DurableCache EntryFolder
  | [] => cache
  | (hash, tree) :: rest => storeAll (writer + 1) (cache.store writer hash tree) rest

end Batch

/-! ## Putting things together -/

namespace Observed

/-- The outcome of a source, given those of the contents that were read. -/
def outcome (outcomes : List (String × Outcome)) (o : Observed) : Outcome :=
  match o.resolution with
  | .session outcome => outcome
  | .durable tree => .parsed tree
  | .parse hash =>
    match outcomes.find? (·.1 == hash) with
    | some (_, outcome) => outcome
    | none => SourceParser.failure "The parser produced no result"

/-- The source with its outcome. -/
def ingested (outcomes : List (String × Outcome)) (o : Observed) : IngestedFile :=
  ⟨o.file, o.outcome outcomes⟩

/-- Was the outcome taken from the session? -/
def isSessionHit (o : Observed) : Bool :=
  match o.resolution with
  | .session _ => true
  | _ => false

/-- Was the outcome taken from the durable cache? -/
def isDurableHit (o : Observed) : Bool :=
  match o.resolution with
  | .durable _ => true
  | _ => false

end Observed

namespace IngestedFile

/-- The error of a source that could not be read. -/
def error? (file : IngestedFile) : Option IngestError :=
  match file.outcome with
  | .parsed _ => none
  | .failed diagnostics => some (.parse file.path diagnostics)

/-- What the session is to remember of a source. -/
def entry (file : IngestedFile) : SessionEntry :=
  ⟨file.path, file.modified, file.content, file.outcome⟩

end IngestedFile

namespace Output

/-- The output of a pass that looked at some sources and had `dispatched`
    contents read. -/
def ofObserved (observed : List Observed) (outcomes : List (String × Outcome))
    (dispatched : Nat) : Output :=
  let files := observed.map (·.ingested outcomes)
  let errors := files.filterMap (·.error?)
  { files, errors,
    stats :=
      { files := files.length
        sessionHits := (observed.filter (·.isSessionHit)).length
        durableHits := (observed.filter (·.isDurableHit)).length
        dispatched
        failures := errors.length } }

end Output

/-- The session after a pass: it knows the files of the pass and no others. -/
def Session.afterPass (s : Session) (files : List IngestedFile) : Session :=
  (files.foldl (fun s file => s.insert file.entry) s).retain fun path =>
    files.any fun file => path.same file.path

/-! ## Whole passes -/

/-- What passes leave to those that follow. -/
structure IntakeState where
  session : Session := {}
  /-- The durable cache, unless results are not kept on disk. -/
  durable : Option (DurableCache EntryFolder) := none
  pool : Pool := {}
  deriving Repr, DecidableEq

/-- A project with what the user asked for. -/
structure Intake where
  /-- The options; the project root is an absolute path. -/
  options : Options
  deriving Repr

namespace Intake

/-- The name of the directory of tests, which is taken in with the sources. -/
def testsDirectory : Path := ⟨"tests"⟩

/-- The intake with some options, as seen from the directory `cwd`. -/
def ofOptions (cwd : Path) (o : Options) : Intake :=
  ⟨{ o with projectRoot := o.projectRoot.absolute cwd }⟩

/-- The filter of sources that the options describe. -/
def filter (i : Intake) : SourceFilter :=
  .ofPatterns i.options.projectRoot i.options.ignoredDirs i.options.ignoredFiles

/-- The directory that the sources of a manifest are looked for in, as seen from
    the project root. -/
def manifestBase (i : Intake) : Path :=
  let dir := i.options.manifest.parent.getD ⟨""⟩
  (dir.below? i.options.projectRoot).getD dir

/-- The entries to scan: those that the user named, or else those of the
    manifest and the tests. -/
def entries (i : Intake) (fs : FileSystem) : Except IngestError (List Path) :=
  if i.options.directories ≠ [] then .ok i.options.directories
  else
    (Manifest.load fs i.options.manifest).map fun m =>
      m.sourceDirectories.map i.manifestBase.join ++ [testsDirectory]

/-- The sources of the project. Every entry that the user named has to have
    some. -/
def sources (i : Intake) (fs : FileSystem) : Except IngestError (List Path) :=
  match i.entries fs with
  | .error e => .error e
  | .ok entries =>
    -- An entry without sources is an error only if the user named it.
    let scans := entries.map (Scan.ofEntry i.filter fs)
    let empty := (scans.filter (·.files.isEmpty)).map (·.directory)
    if i.options.directories ≠ [] ∧ empty ≠ [] then .error (.noFilesFound empty)
    else .ok (Scan.dedupe scans)

/-- The oracle for a pass that starts in some state. -/
def oracle (i : Intake) (s : IntakeState) : Oracle :=
  ⟨s.session, s.durable, i.options.watch, i.options.freshness⟩

/-- Has the contents read that have to be, if there are any, and gives the
    outcomes by digest. -/
def parse (parser : SourceParser) (pool : Pool) (pending : List Pending) :
    Except IngestError (List (String × Outcome)) × Pool :=
  -- Without anything to read the workers are not even asked.
  if pending.isEmpty then (.ok [], pool)
  else
    match pool.parseBatch parser (Batch.requests 0 pending) with
    | (.ok responses, pool) => (.ok (Batch.outcomes responses 0 pending), pool)
    | (.error e, pool) => (.error e, pool)

/-- The end of a pass, once the outcomes are known. -/
def finish (s : IntakeState) (pool : Pool) (observed : List Observed) (dispatched : Nat)
    (outcomes : List (String × Outcome)) : Output × IntakeState :=
  let output := Output.ofObserved observed outcomes dispatched
  -- Modules that cannot be stored are read again some other time.
  (output,
    { session := s.session.afterPass output.files
      durable := s.durable.map fun cache => Batch.storeAll 0 cache (Batch.stores outcomes)
      pool })

/-- Takes in the project. The workers are released however the pass ends. -/
def run (i : Intake) (fs : FileSystem) (parser : SourceParser) (s : IntakeState) :
    Except IngestError Output × IntakeState :=
  match i.sources fs with
  | .error e => (.error e, s)
  | .ok paths =>
    let pool := s.pool.prepare
    match (i.oracle s).observeAll fs i.options.projectRoot paths with
    | .error e => (.error e, { s with pool := pool.dropGuard })
    | .ok observed =>
      let pending := Batch.pending [] observed
      match parse parser pool pending with
      | (.error e, pool) => (.error e, { s with pool := pool.dropGuard })
      | (.ok outcomes, pool) =>
        let (output, s) := finish s pool.dropGuard observed pending.length outcomes
        (.ok output, s)

/-- Forgets every outcome, in the session and on disk. -/
def clearCache (s : IntakeState) : Except CacheError Unit × IntakeState :=
  match s.durable with
  | none => (.ok (), { s with session := {} })
  | some cache =>
    -- The session is forgotten even if the entries cannot be cleared.
    let (result, cache) := cache.clear
    (result, { s with session := {}, durable := some cache })

end Intake

end ElmIntake
