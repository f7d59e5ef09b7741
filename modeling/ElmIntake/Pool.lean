import ElmIntake.Error
import ElmIntake.Syntax.Outcome

/-! # The pool of workers

    Contents are read by workers, in batches. The pool has to be **prepared**
    before a batch; whoever prepares it holds a guard, and when a guard is
    dropped the workers are released. What becomes of one content never depends
    on the others: bytes that are no text and a parser that crashes make only
    their own file fail. -/

namespace ElmIntake

/-! ## Parsers -/

/-- A parser of sources: it gives an outcome, or crashes for some reason. -/
abbrev SourceParser := String → Except String Outcome

namespace SourceParser

/-- The parser of this library, which never crashes. -/
def elm : SourceParser := fun source => .ok (.ofSource source)

/-- Does the text `marker` occur in another one? -/
def occurs (marker : List Char) : List Char → Bool
  | [] => marker.isEmpty
  | c :: cs => marker.isPrefixOf (c :: cs) || occurs marker cs

/-- A parser that crashes on every source with `marker` in it. -/
def explodingOn (marker : String) : SourceParser := fun source =>
  if occurs marker.toList source.toList then .error s!"parser exploded on {marker}"
  else .ok (.ofSource source)

/-- The outcome of a file that fails as a whole. -/
def failure (message : String) : Outcome := .failed [.error .dummy message]

/-- The outcome of any content. -/
def outcome (p : SourceParser) (content : Bytes) : Outcome :=
  match Text.ofUtf8 content with
  | .error fault => failure s!"File is not valid UTF-8: {fault}"
  | .ok source =>
    match p source with
    | .ok outcome => outcome
    | .error reason => failure s!"The parser crashed: {reason}"

end SourceParser

/-! ## Requests -/

/-- A content to be read, with a number by which its outcome will be known. -/
structure ParseRequest where
  id : Nat
  content : Bytes
  deriving Repr, DecidableEq

namespace ParseRequest

/-- Does the parser get to see the content? -/
def isText (r : ParseRequest) : Bool := (Text.ofUtf8 r.content).toOption.isSome

end ParseRequest

/-- What became of a request. -/
structure ParseResponse where
  id : Nat
  outcome : Outcome
  deriving Repr, DecidableEq

/-- Answers a request. -/
def ParseRequest.answer (p : SourceParser) (r : ParseRequest) : ParseResponse :=
  ⟨r.id, p.outcome r.content⟩

/-! ## The pool -/

/-- The state of a pool. -/
structure Pool where
  /-- How many workers there may be. -/
  maxWorkers : Option Nat := none
  /-- Are there workers? -/
  prepared : Bool := false
  /-- How many requests were taken since the pool was made. -/
  dispatched : Nat := 0
  /-- How many times the parser was called. -/
  calls : Nat := 0
  deriving Repr, DecidableEq

namespace Pool

/-- How many workers there are on a machine that can run `available` at a time:
    no more than that, no more than allowed, and at least one. -/
def workerCount (p : Pool) (available : Nat) : Nat :=
  match p.maxWorkers with
  | some cap => max (min available cap) 1
  | none => available

/-- Starts the workers, unless they are there, and gives out a guard. -/
def prepare (p : Pool) : Pool := { p with prepared := true }

/-- Releases the workers, if there are any. -/
def terminate (p : Pool) : Pool := { p with prepared := false }

/-- Drops a guard, which releases the workers. -/
def dropGuard (p : Pool) : Pool := p.terminate

/-- Takes a batch of requests, or refuses it because there are no workers. The
    responses stand in the order of the requests here; workers may give them in
    any order, and they are to be known by their numbers. -/
def parseBatch (p : Pool) (parser : SourceParser) (requests : List ParseRequest) :
    Except IngestError (List ParseResponse) × Pool :=
  if p.prepared then
    (.ok (requests.map (·.answer parser)),
      { p with
        dispatched := p.dispatched + requests.length
        calls := p.calls + (requests.filter (·.isText)).length })
  else (.error .poolNotPrepared, p)

end Pool

/-! ## Traces -/

/-- What can be done with a pool. -/
inductive PoolStep where
  | prepare
  /-- One of the guards is dropped. -/
  | dropGuard
  | terminate
  | parse (requests : List ParseRequest)
  deriving Repr, DecidableEq

/-- The pool after a step. -/
def Pool.step (parser : SourceParser) (p : Pool) : PoolStep → Pool
  | .prepare => p.prepare
  | .dropGuard => p.dropGuard
  | .terminate => p.terminate
  | .parse requests => (p.parseBatch parser requests).2

/-- The pool after some steps. -/
def Pool.run (parser : SourceParser) (p : Pool) (steps : List PoolStep) : Pool :=
  steps.foldl (Pool.step parser) p

end ElmIntake
