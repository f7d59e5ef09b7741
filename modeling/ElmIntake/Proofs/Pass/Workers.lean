import ElmIntake.Proofs.Pass.Batch
import Mathlib.Data.List.Perm.Basic
import Mathlib.Logic.Relation

/-! # Workers

    The requests of a batch are answered by workers at the same time. A worker that
    has nothing to do takes any request that nobody has taken yet; when it is done
    with it, it sends the response. Nothing is said of who comes first: a batch on
    its way is a **shift**, and every sequence of acts of the workers is a run of it.

    The invariant (`Shift.Accounts`): together, the requests that are waiting, those
    that are being answered and the responses that were sent are always the batch, and
    each one is answered by itself. So a shift that is over has sent the responses of
    the batch in some order, and as they are found by their numbers, the outcomes are
    the same in every order. -/

namespace ElmIntake

/-- A batch on its way through the workers. -/
structure Shift where
  /-- The requests that no worker has taken yet. -/
  waiting : List ParseRequest
  /-- Those that workers are at. -/
  running : List ParseRequest
  /-- The responses, in the order in which they were sent. -/
  sent : List ParseResponse
  /-- How many times the parser was called. -/
  calls : Nat
  deriving Repr, DecidableEq

namespace Shift

/-- Before any request was taken. -/
def start (requests : List ParseRequest) : Shift := ⟨requests, [], [], 0⟩

/-- What one of `workers` workers can do. -/
inductive Step (parser : SourceParser) (workers : Nat) : Shift → Shift → Prop where
  /-- A worker that is idle takes a request. The parser gets to see it if it is a
      text. -/
  | take {before after running : List ParseRequest} {sent : List ParseResponse} {calls : Nat}
      (r : ParseRequest) (idle : running.length < workers) :
      Step parser workers ⟨before ++ r :: after, running, sent, calls⟩
        ⟨before ++ after, r :: running, sent, calls + if r.isText then 1 else 0⟩
  /-- A worker is done with its request. -/
  | send {waiting before after : List ParseRequest} {sent : List ParseResponse} {calls : Nat}
      (r : ParseRequest) :
      Step parser workers ⟨waiting, before ++ r :: after, sent, calls⟩
        ⟨waiting, before ++ after, sent ++ [r.answer parser], calls⟩

/-- Can the workers, in some run, come from the requests to this end of the shift, where
    nothing is left to be done? -/
structure Ends (parser : SourceParser) (workers : Nat) (requests : List ParseRequest)
    (s : Shift) : Prop where
  run : Relation.ReflTransGen (Step parser workers) (start requests) s
  waiting : s.waiting = []
  running : s.running = []

variable {parser : SourceParser} {workers : Nat} {requests : List ParseRequest} {s s' : Shift}

/-! ## The invariant -/

/-- What a shift has of its requests. -/
structure Accounts (parser : SourceParser) (requests : List ParseRequest) (s : Shift) : Prop where
  /-- Each request is waiting, is being answered, or has its own answer sent. -/
  responses : ((s.waiting ++ s.running).map (·.answer parser) ++ s.sent).Perm
    (requests.map (·.answer parser))
  /-- The parser has seen the texts that were taken. -/
  calls : s.calls + (s.waiting.filter (·.isText)).length = (requests.filter (·.isText)).length

theorem accounts_start (parser : SourceParser) (requests : List ParseRequest) :
    Accounts parser requests (start requests) where
  responses := by simp [start]
  calls := Nat.zero_add _

/-- **The step.** -/
theorem Accounts.step (h : Accounts parser requests s) (hstep : Step parser workers s s') :
    Accounts parser requests s' := by
  obtain ⟨hresponses, hcalls⟩ := h
  cases hstep with
  | @take before after running sent calls r _ =>
    constructor
    case responses =>
      refine List.Perm.trans ?_ hresponses
      -- The request has moved from the middle of one list to the front of the other.
      have hmoved : (before ++ after ++ r :: running).Perm (before ++ r :: after ++ running) := by
        rw [List.append_assoc, List.append_assoc]
        exact List.perm_middle.append_left before
      exact (hmoved.map _).append_right sent
    case calls =>
      simp only [List.filter_append, List.filter_cons, List.length_append] at hcalls ⊢
      cases htext : r.isText with
      | true =>
        simp only [htext, if_true, List.length_cons] at hcalls ⊢
        omega
      | false =>
        simp only [htext, Bool.false_eq_true, if_false] at hcalls ⊢
        omega
  | @send waiting before after sent calls r =>
    refine ⟨List.Perm.trans ?_ hresponses, hcalls⟩
    -- The request has left the middle of the list, and its response stands at the end.
    have hmoved :
        (waiting ++ (before ++ after) ++ [r]).Perm (waiting ++ (before ++ r :: after)) := by
      rw [List.append_assoc, List.append_assoc]
      exact ((List.perm_append_singleton r after).append_left before).append_left waiting
    have hanswers := (hmoved.map (·.answer parser)).append_right sent
    rw [List.map_append, List.append_assoc] at hanswers
    exact List.Perm.trans (List.perm_append_comm.append_left _) hanswers

/-- **The run.** -/
theorem Accounts.run (hrun : Relation.ReflTransGen (Step parser workers) (start requests) s) :
    Accounts parser requests s := by
  induction hrun with
  | refl => exact accounts_start parser requests
  | tail _ hstep ih => exact ih.step hstep

/-- In the end each request has been answered, whatever the others were. -/
theorem Ends.perm (h : Ends parser workers requests s) :
    s.sent.Perm (requests.map (·.answer parser)) := by
  have hresponses := (Accounts.run h.run).responses
  rwa [h.waiting, h.running] at hresponses

/-- In the end the parser has been called for each text once. -/
theorem Ends.calls (h : Ends parser workers requests s) :
    s.calls = (requests.filter (·.isText)).length := by
  have hcalls := (Accounts.run h.run).calls
  rwa [h.waiting] at hcalls

/-! ## Every order is possible -/

/-- One worker answers the requests that are left in any order. -/
theorem exists_run_of_perm (parser : SourceParser) {order waiting : List ParseRequest}
    (hworkers : 0 < workers) (hperm : waiting.Perm order) (sent : List ParseResponse)
    (calls : Nat) :
    ∃ calls', Relation.ReflTransGen (Step parser workers) ⟨waiting, [], sent, calls⟩
      ⟨[], [], sent ++ order.map (·.answer parser), calls'⟩ := by
  induction order generalizing waiting sent calls with
  | nil =>
    rw [hperm.eq_nil, List.map_nil, List.append_nil]
    exact ⟨calls, .refl⟩
  | cons r order ih =>
    obtain ⟨before, after, rfl⟩ := List.append_of_mem (hperm.symm.subset List.mem_cons_self)
    have hrest : (before ++ after).Perm order :=
      (List.perm_cons r).1 (List.perm_middle.symm.trans hperm)
    have htake : Step parser workers ⟨before ++ r :: after, [], sent, calls⟩
        ⟨before ++ after, [r], sent, calls + if r.isText then 1 else 0⟩ := .take r hworkers
    have hsend : Step parser workers
        ⟨before ++ after, [] ++ r :: [], sent, calls + if r.isText then 1 else 0⟩
        ⟨before ++ after, [], sent ++ [r.answer parser], calls + if r.isText then 1 else 0⟩ :=
      .send r
    obtain ⟨calls', hrun⟩ :=
      ih hrest (sent ++ [r.answer parser]) (calls + if r.isText then 1 else 0)
    rw [List.append_assoc] at hrun
    exact ⟨calls', .head htake (.head hsend hrun)⟩

/-- Responses can come in every order. -/
theorem exists_ends_of_perm (parser : SourceParser) {order : List ParseRequest}
    (hworkers : 0 < workers) (hperm : requests.Perm order) :
    ∃ s, Ends parser workers requests s ∧ s.sent = order.map (·.answer parser) := by
  obtain ⟨calls, hrun⟩ := exists_run_of_perm parser hworkers hperm [] 0
  exact ⟨_, ⟨hrun, rfl, rfl⟩, List.nil_append _⟩

end Shift

/-! ## Outcomes -/

namespace Batch

/-- Where no number comes twice, a response is found by its number. -/
theorem find?_of_nodup {responses : List ParseResponse} {response : ParseResponse}
    (hnodup : (responses.map ParseResponse.id).Nodup) (hmem : response ∈ responses) :
    responses.find? (·.id == response.id) = some response := by
  rw [List.find?_eq_some_iff_append]
  obtain ⟨before, after, rfl⟩ := List.append_of_mem hmem
  refine ⟨by simp, before, after, rfl, ?_⟩
  intro other hother
  rw [List.map_append, List.nodup_append] at hnodup
  have hne := hnodup.2.2 other.id (List.mem_map_of_mem hother) response.id (by simp)
  simpa using hne

/-- **Outcomes do not hang on the order of the responses.** -/
theorem outcomes_of_perm {parser : SourceParser} {responses : List ParseResponse} {id : Nat}
    {ps : List Pending} (h : responses.Perm ((requests id ps).map (·.answer parser))) :
    outcomes responses id ps = answers parser ps := by
  have hids : (responses.map ParseResponse.id).Perm ((requests id ps).map ParseRequest.id) := by
    have hmap := h.map ParseResponse.id
    rwa [List.map_map] at hmap
  have hnodup : (responses.map ParseResponse.id).Nodup := hids.nodup_iff.2 (nodup_requests id ps)
  apply outcomes_eq_answers
  intro r hr
  exact find?_of_nodup hnodup (h.symm.subset (List.mem_map_of_mem hr))

end Batch

end ElmIntake
