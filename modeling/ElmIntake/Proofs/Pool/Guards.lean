import ElmIntake.Pool
import Mathlib.Data.List.Induction

/-! # Guards of a pool

    Whoever prepares a pool is given a guard, sends batches through it, and drops it in
    the end. A pool can be prepared again while guards are alive, and then there are
    several of them, which all stand for the same workers. Nobody counts them: any guard
    that is dropped releases the workers, whoever else relies on them.

    So what becomes of a batch that is sent through a live guard is decided by the last
    time that a guard was given out or dropped. The invariant (`GuardedPool.Settles`)
    says how, the step lemma that one more step keeps it, and the run lemma is by
    induction on the last step.

    Main statement: `GuardedPool.parseBatch_refused_iff`. Only where no two guards are
    alive at once is a live guard a promise. -/

namespace ElmIntake

/-! ## Pools with guards -/

/-- What is done with a pool and its guards, which are known by the numbers under which
    they were given out. -/
inductive GuardStep where
  | prepare
  | drop (guard : Nat)
  /-- A batch is sent through a guard, or to the pool itself. -/
  | parse (through : Option Nat) (requests : List ParseRequest)
  deriving Repr, DecidableEq

/-- A pool with the guards that were given out for it. -/
structure GuardedPool where
  pool : Pool
  /-- How many guards were given out, which is the number of the next one. -/
  given : Nat
  /-- The guards that have not been dropped. -/
  alive : List Nat
  deriving Repr, DecidableEq

namespace GuardedPool

/-- A new pool, for which no guard was given out. -/
def start (maxWorkers : Option Nat) : GuardedPool := ⟨{ maxWorkers }, 0, []⟩

/-- The pool and its guards after a step. A guard that is not alive has no owner who could
    drop it, or send a batch through it. -/
def step? (parser : SourceParser) (s : GuardedPool) : GuardStep → Option GuardedPool
  | .prepare => some ⟨s.pool.prepare, s.given + 1, s.given :: s.alive⟩
  | .drop guard =>
    if guard ∈ s.alive then some ⟨s.pool.dropGuard, s.given, s.alive.erase guard⟩ else none
  | .parse through requests =>
    if ∀ guard ∈ through, guard ∈ s.alive then
      some { s with pool := (s.pool.parseBatch parser requests).2 }
    else none

/-- The pool and its guards after some steps. -/
def run? (parser : SourceParser) (s : GuardedPool) (steps : List GuardStep) :
    Option GuardedPool :=
  steps.foldlM (step? parser) s

/-- Was a guard dropped since a guard was last given out? -/
def IsReleased (steps : List GuardStep) : Prop :=
  ∃ before guard after, steps = before ++ .drop guard :: after ∧ .prepare ∉ after

/-- Are no two guards alive at once, at any time? -/
def Alone (parser : SourceParser) (s : GuardedPool) (steps : List GuardStep) : Prop :=
  ∀ before after s', steps = before ++ after → s.run? parser before = some s' →
    s'.alive.length ≤ 1

section

variable {parser : SourceParser} {s s' : GuardedPool} {act : GuardStep} {steps : List GuardStep}

/-! ## One more step -/

/-- A drop releases the workers, and only a guard that is given out afterwards can bring
    them back. -/
theorem isReleased_append (steps : List GuardStep) (act : GuardStep) :
    IsReleased (steps ++ [act]) ↔
      (∃ guard, act = .drop guard) ∨ IsReleased steps ∧ act ≠ .prepare := by
  constructor
  · rintro ⟨before, guard, after, h, hprepare⟩
    -- The last step is the drop itself, or one of those behind it.
    rcases List.eq_nil_or_concat after with rfl | ⟨front, last, rfl⟩
    · obtain ⟨-, hact⟩ := List.append_inj' h rfl
      exact .inl ⟨guard, List.singleton_inj.1 hact⟩
    · rw [List.concat_eq_append, ← List.cons_append, ← List.append_assoc] at h
      obtain ⟨hsteps, hact⟩ := List.append_inj' h rfl
      obtain rfl := List.singleton_inj.1 hact
      rw [List.concat_eq_append, List.mem_append, List.mem_singleton, not_or] at hprepare
      exact .inr ⟨⟨before, guard, front, hsteps, hprepare.1⟩, Ne.symm hprepare.2⟩
  · rintro (⟨guard, rfl⟩ | ⟨⟨before, guard, after, rfl, hprepare⟩, hact⟩)
    · exact ⟨steps, guard, [], rfl, List.not_mem_nil⟩
    · refine ⟨before, guard, after ++ [act], by simp, ?_⟩
      rw [List.mem_append, List.mem_singleton, not_or]
      exact ⟨hprepare, Ne.symm hact⟩

/-- A pool refuses a batch for want of workers, and for nothing else. -/
theorem parseBatch_eq (pool : Pool) (parser : SourceParser) (requests : List ParseRequest) :
    (pool.parseBatch parser requests).1 =
      if pool.prepared then .ok (requests.map (·.answer parser)) else .error .poolNotPrepared := by
  unfold Pool.parseBatch
  split <;> rfl

/-- No batch starts or releases workers. -/
theorem prepared_parseBatch (pool : Pool) (parser : SourceParser) (requests : List ParseRequest) :
    (pool.parseBatch parser requests).2.prepared = pool.prepared := by
  unfold Pool.parseBatch
  split <;> rfl

/-- What a step does to the workers and to the guards. -/
theorem cases_of_step? (h : s.step? parser act = some s') :
    (act = .prepare ∧ s'.pool.prepared = true) ∨
      (∃ guard, act = .drop guard ∧ guard ∈ s.alive ∧ s'.pool.prepared = false ∧
        s'.alive = s.alive.erase guard) ∨
      ∃ through requests, act = .parse through requests ∧
        s'.pool.prepared = s.pool.prepared ∧ s'.alive = s.alive := by
  cases act with
  | prepare =>
    cases h
    exact .inl ⟨rfl, rfl⟩
  | drop guard =>
    by_cases hguard : guard ∈ s.alive
    · rw [step?, if_pos hguard] at h
      cases h
      exact .inr (.inl ⟨guard, rfl, hguard, rfl, rfl⟩)
    · rw [step?, if_neg hguard] at h
      cases h
  | parse through requests =>
    by_cases hthrough : ∀ guard ∈ through, guard ∈ s.alive
    · rw [step?, if_pos hthrough] at h
      cases h
      exact .inr (.inr ⟨through, requests, rfl, prepared_parseBatch _ _ _, rfl⟩)
    · rw [step?, if_neg hthrough] at h
      cases h

theorem run?_append (s : GuardedPool) (before after : List GuardStep) :
    s.run? parser (before ++ after) = (s.run? parser before).bind (·.run? parser after) :=
  List.foldlM_append

theorem run?_cons (s : GuardedPool) (act : GuardStep) (steps : List GuardStep) :
    s.run? parser (act :: steps) = (s.step? parser act).bind (·.run? parser steps) :=
  rfl

/-! ## The invariant -/

/-- **Who decides.** What the steps so far mean for the workers. -/
structure Settles (steps : List GuardStep) (s : GuardedPool) : Prop where
  released : IsReleased steps → s.pool.prepared = false
  /-- Unless a guard was dropped, the workers are there for those who are alive. -/
  kept : ¬ IsReleased steps → s.alive ≠ [] → s.pool.prepared = true

theorem settles_start (maxWorkers : Option Nat) : Settles [] (start maxWorkers) :=
  ⟨fun _ => rfl, fun _ halive => absurd rfl halive⟩

/-- **The step.** -/
theorem Settles.step (hs : Settles steps s) (h : s.step? parser act = some s') :
    Settles (steps ++ [act]) s' := by
  rcases cases_of_step? h with ⟨rfl, hprepared⟩ | ⟨guard, rfl, -, hprepared, -⟩ |
    ⟨through, requests, rfl, hprepared, halive⟩
  · constructor
    · intro hreleased
      rcases (isReleased_append _ _).1 hreleased with ⟨guard, hdrop⟩ | ⟨-, hne⟩
      · cases hdrop
      · exact absurd rfl hne
    · intro _ _
      exact hprepared
  · constructor
    · intro _
      exact hprepared
    · intro hkept _
      exact absurd ((isReleased_append _ _).2 (.inl ⟨guard, rfl⟩)) hkept
  · constructor
    · intro hreleased
      rcases (isReleased_append _ _).1 hreleased with ⟨guard, hdrop⟩ | ⟨hbefore, -⟩
      · cases hdrop
      · rw [hprepared]
        exact hs.released hbefore
    · intro hkept hne
      rw [hprepared]
      rw [halive] at hne
      apply hs.kept _ hne
      intro hbefore
      exact hkept ((isReleased_append _ _).2 (.inr ⟨hbefore, nofun⟩))

/-- **The run.** The induction is on the last step. -/
theorem Settles.run {maxWorkers : Option Nat}
    (h : (start maxWorkers).run? parser steps = some s) : Settles steps s := by
  induction steps using List.reverseRecOn generalizing s with
  | nil =>
    cases h
    exact settles_start maxWorkers
  | append_singleton steps act ih =>
    rw [run?_append] at h
    obtain ⟨before, hbefore, hlast⟩ := Option.bind_eq_some_iff.1 h
    rw [run?_cons] at hlast
    obtain ⟨after, hstep, hafter⟩ := Option.bind_eq_some_iff.1 hlast
    cases hafter
    exact (ih hbefore).step hstep

/-! ## Guards that are alone -/

/-- Where no guard is given out, those that are alive in the end were alive before. -/
theorem alive_subset_of_run? (h : s.run? parser steps = some s') (hprepare : .prepare ∉ steps) :
    s'.alive ⊆ s.alive := by
  induction steps generalizing s with
  | nil =>
    cases h
    exact List.Subset.refl _
  | cons act steps ih =>
    rw [run?_cons] at h
    obtain ⟨next, hstep, hrest⟩ := Option.bind_eq_some_iff.1 h
    have hlater : s'.alive ⊆ next.alive :=
      ih hrest fun hmem => hprepare (List.mem_cons_of_mem _ hmem)
    rcases cases_of_step? hstep with ⟨rfl, -⟩ | ⟨guard, rfl, -, -, halive⟩ |
      ⟨through, requests, rfl, -, halive⟩
    · exact absurd List.mem_cons_self hprepare
    · rw [halive] at hlater
      exact List.Subset.trans hlater List.erase_subset
    · rw [halive] at hlater
      exact hlater

/-- If no two guards are alive at once, then none is once a guard was dropped, until the
    next one is given out. -/
theorem alive_of_isReleased (hrun : s.run? parser steps = some s') (halone : s.Alone parser steps)
    (hreleased : IsReleased steps) : s'.alive = [] := by
  obtain ⟨before, guard, after, rfl, hprepare⟩ := hreleased
  rw [run?_append] at hrun
  obtain ⟨holding, hbefore, hrest⟩ := Option.bind_eq_some_iff.1 hrun
  rw [run?_cons] at hrest
  obtain ⟨released, hstep, hafter⟩ := Option.bind_eq_some_iff.1 hrest
  have hnone : released.alive = [] := by
    rcases cases_of_step? hstep with ⟨hact, -⟩ | ⟨dropped, -, hdropped, -, halive⟩ |
      ⟨through, requests, hact, -⟩
    · cases hact
    · have hlength : holding.alive.length ≤ 1 := halone before _ holding rfl hbefore
      have herased := List.length_erase_of_mem hdropped
      rw [halive]
      apply List.length_eq_zero_iff.1
      omega
    · cases hact
  have hsubset := alive_subset_of_run? hafter hprepare
  rw [hnone] at hsubset
  exact List.subset_nil.1 hsubset

end

/-! ## Batches through guards -/

/-- **A live guard is good until any guard is dropped.** A batch that is sent through a
    guard that is alive is refused just if some guard was dropped since a guard was last
    given out, and is answered otherwise. Where no two guards are alive at once, it is
    always answered. -/
theorem parseBatch_refused_iff {parser : SourceParser} {maxWorkers : Option Nat}
    {steps : List GuardStep} {s : GuardedPool} {guard : Nat}
    (hrun : (start maxWorkers).run? parser steps = some s) (hguard : guard ∈ s.alive)
    (requests : List ParseRequest) :
    ((s.pool.parseBatch parser requests).1 = .error .poolNotPrepared ↔ IsReleased steps) ∧
      (¬ IsReleased steps →
        (s.pool.parseBatch parser requests).1 = .ok (requests.map (·.answer parser))) ∧
      ((start maxWorkers).Alone parser steps → ¬ IsReleased steps) := by
  have hsettles : Settles steps s := Settles.run hrun
  have hne : s.alive ≠ [] := List.ne_nil_of_mem hguard
  have hanswered : ¬ IsReleased steps →
      (s.pool.parseBatch parser requests).1 = .ok (requests.map (·.answer parser)) := by
    intro hkept
    rw [parseBatch_eq, if_pos (hsettles.kept hkept hne)]
  refine ⟨⟨?_, ?_⟩, hanswered, ?_⟩
  · intro hrefused
    by_contra hkept
    rw [hanswered hkept] at hrefused
    cases hrefused
  · intro hreleased
    rw [parseBatch_eq, if_neg (by simp [hsettles.released hreleased])]
  · intro halone hreleased
    exact hne (alive_of_isReleased hrun halone hreleased)

/-- Two guards, one of them dropped: the other one does not keep the workers. -/
def overlapping : List GuardStep := [.prepare, .prepare, .drop 1]

/-- A batch with a single source. -/
def shortBatch : List ParseRequest := [⟨0, Text.toUtf8 "a = 1\n"⟩]

/-- Behind the drop the batch is refused, and once the pool is prepared again it is
    answered, through the same guard. -/
theorem parseBatch_refused_overlapping :
    ∃ s s', (start none).run? .elm overlapping = some s ∧ 0 ∈ s.alive ∧
      (s.pool.parseBatch .elm shortBatch).1 = .error .poolNotPrepared ∧
      (start none).run? .elm (overlapping ++ [.prepare]) = some s' ∧ 0 ∈ s'.alive ∧
      (s'.pool.parseBatch .elm shortBatch).1 = .ok (shortBatch.map (·.answer .elm)) := by
  have hrun : (start none).run? .elm overlapping = some ⟨{}, 2, [0]⟩ := rfl
  have hreleased : IsReleased overlapping := ⟨[.prepare, .prepare], 1, [], rfl, nofun⟩
  have hrun' : (start none).run? .elm (overlapping ++ [.prepare]) =
      some ⟨{ prepared := true }, 3, [2, 0]⟩ := rfl
  have hkept : ¬ IsReleased (overlapping ++ [.prepare]) := by
    rw [isReleased_append]
    simp
  refine ⟨_, _, hrun, by decide, ?_, hrun', by decide, ?_⟩
  · exact (parseBatch_refused_iff hrun (by decide : 0 ∈ [0]) shortBatch).1.2 hreleased
  · exact (parseBatch_refused_iff hrun' (by decide : 0 ∈ [2, 0]) shortBatch).2.1 hkept

/-- A guard that is alive is no promise. -/
theorem live_guard_refused :
    ¬ ∀ (parser : SourceParser) (maxWorkers : Option Nat) (steps : List GuardStep)
      (s : GuardedPool) (guard : Nat) (requests : List ParseRequest),
      (start maxWorkers).run? parser steps = some s → guard ∈ s.alive →
        (s.pool.parseBatch parser requests).1 ≠ .error .poolNotPrepared := by
  intro hpromise
  have hrun : (start none).run? .elm overlapping = some ⟨{}, 2, [0]⟩ := rfl
  exact hpromise .elm none overlapping _ 0 shortBatch hrun (by decide) rfl

end GuardedPool

end ElmIntake
