import ElmIntake.Pass
import Mathlib.Data.List.Nodup

/-! # What a batch gives

    Of the contents to be read each digest is asked for once, and the outcomes
    that come back are those of the contents that were sent, under their
    digests. Responses are found by their numbers, so their order does not
    matter. -/

namespace ElmIntake

namespace Batch

/-! ## Contents to be read -/

variable {seen : List String} {os : List Observed} {p : Pending}

/-- What is pending comes from some source that has to be read. -/
theorem exists_of_mem_pending (h : p ∈ pending seen os) :
    ∃ o ∈ os, o.hash? = some p.hash ∧ o.file.content = p.content := by
  induction os generalizing seen with
  | nil => cases h
  | cons o os ih =>
    have hlift : ∀ {seen}, p ∈ pending seen os →
        ∃ o' ∈ o :: os, o'.hash? = some p.hash ∧ o'.file.content = p.content := by
      intro seen hp
      obtain ⟨o', ho', hrest⟩ := ih hp
      exact ⟨o', List.mem_cons_of_mem _ ho', hrest⟩
    unfold pending at h
    split at h
    · exact hlift h
    · next hash hhash =>
      split at h
      · exact hlift h
      · rcases List.mem_cons.1 h with rfl | h
        · exact ⟨o, List.mem_cons_self, hhash, rfl⟩
        · exact hlift h

/-- Every digest that has to be read is pending, unless it was seen before. -/
theorem exists_mem_pending {o : Observed} {hash : String} (ho : o ∈ os)
    (hhash : o.hash? = some hash) (hseen : hash ∉ seen) :
    ∃ p ∈ pending seen os, p.hash = hash := by
  induction os generalizing seen with
  | nil => cases ho
  | cons first os ih =>
    unfold pending
    rcases List.mem_cons.1 ho with rfl | ho
    · rw [hhash]
      simp [hseen]
    · split
      · exact ih ho hseen
      · next hash' hhash' =>
        split
        · exact ih ho hseen
        · by_cases heq : hash = hash'
          · exact ⟨_, List.mem_cons_self, heq.symm⟩
          · -- Another digest joins those that were seen, so this one is still to come.
            have hseen' : hash ∉ hash' :: seen := by simp [heq, hseen]
            obtain ⟨p, hp, hpeq⟩ := ih ho hseen'
            exact ⟨p, List.mem_cons_of_mem _ hp, hpeq⟩

/-! ## Outcomes -/

/-- The outcomes of some contents, under their digests. -/
def answers (parser : SourceParser) (pending : List Pending) : List (String × Outcome) :=
  pending.map fun p => (p.hash, parser.outcome p.content)

/-- Outcomes are found in responses that give, for each number, the outcome of
    the request of that number. -/
theorem outcomes_eq_answers {parser : SourceParser} {responses : List ParseResponse} {id : Nat}
    {ps : List Pending}
    (h : ∀ r ∈ requests id ps, responses.find? (·.id == r.id) = some (r.answer parser)) :
    outcomes responses id ps = answers parser ps := by
  induction ps generalizing id with
  | nil => rfl
  | cons p ps ih =>
    have hfirst := h ⟨id, p.content⟩ List.mem_cons_self
    have hrest := ih fun r hr => h r (List.mem_cons_of_mem _ hr)
    rw [outcomes, hfirst, hrest]
    rfl

theorem le_id_of_mem_requests {id : Nat} {ps : List Pending} {r : ParseRequest}
    (h : r ∈ requests id ps) : id ≤ r.id := by
  induction ps generalizing id with
  | nil => cases h
  | cons p ps ih =>
    rcases List.mem_cons.1 h with rfl | h
    · exact Nat.le_refl _
    · exact Nat.le_of_succ_le (ih h)

/-- No two requests of a batch have the same number. -/
theorem nodup_requests (id : Nat) (ps : List Pending) :
    ((requests id ps).map ParseRequest.id).Nodup := by
  induction ps generalizing id with
  | nil => exact List.nodup_nil
  | cons p ps ih =>
    rw [requests, List.map_cons, List.nodup_cons]
    refine ⟨fun hmem => ?_, ih (id + 1)⟩
    obtain ⟨r, hr, heq⟩ := List.mem_map.1 hmem
    have := le_id_of_mem_requests hr
    exact absurd heq (Nat.ne_of_gt this)

theorem find?_map_answer {parser : SourceParser} {rs : List ParseRequest}
    (hnodup : (rs.map ParseRequest.id).Nodup) {r : ParseRequest} (hr : r ∈ rs) :
    (rs.map (·.answer parser)).find? (·.id == r.id) = some (r.answer parser) := by
  induction rs with
  | nil => cases hr
  | cons first rs ih =>
    rw [List.map_cons, List.nodup_cons] at hnodup
    rw [List.map_cons]
    rcases List.mem_cons.1 hr with rfl | hr
    · exact List.find?_cons_of_pos (by simp [ParseRequest.answer])
    · have hne : first.id ≠ r.id := fun heq => hnodup.1 (heq ▸ List.mem_map_of_mem hr)
      rw [List.find?_cons_of_neg (by simpa [ParseRequest.answer] using hne)]
      exact ih hnodup.2 hr

/-- What is stored are the modules of the contents that were read with success. -/
theorem exists_of_mem_stores {parser : SourceParser} {ps : List Pending} {m : String × Module}
    (h : m ∈ stores (answers parser ps)) :
    ∃ p ∈ ps, p.hash = m.1 ∧ parser.outcome p.content = .parsed m.2 := by
  obtain ⟨answer, hanswer, hmodule⟩ := List.mem_filterMap.1 h
  obtain ⟨p, hp, rfl⟩ := List.mem_map.1 hanswer
  obtain ⟨tree, htree, rfl⟩ := Option.map_eq_some_iff.1 hmodule
  refine ⟨p, hp, rfl, ?_⟩
  cases houtcome : parser.outcome p.content with
  | parsed found =>
    simp only [houtcome, Outcome.module?, Option.some.injEq] at htree
    rw [htree]
  | failed diagnostics => simp [houtcome, Outcome.module?] at htree

theorem outcomes_map_answer (parser : SourceParser) (id : Nat) (ps : List Pending) :
    outcomes ((requests id ps).map (·.answer parser)) id ps = answers parser ps :=
  outcomes_eq_answers fun _ hr => find?_map_answer (nodup_requests id ps) hr

end Batch

end ElmIntake
