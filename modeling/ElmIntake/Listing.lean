/-! # Listings

    What is under each of some names. A listing remembers the order in which
    names were first put into it. -/

namespace ElmIntake

/-- Names and what is under them. -/
abbrev Listing (α : Type) := List (String × α)

namespace Listing

/-- What is under a name. -/
def get? {α : Type} : Listing α → String → Option α
  | [], _ => none
  | (n, a) :: rest, name => if n = name then some a else get? rest name

/-- Puts something under a name, in the place of what was there. -/
def put {α : Type} (name : String) (a : α) : Listing α → Listing α
  | [] => [(name, a)]
  | (n, b) :: rest => if n = name then (name, a) :: rest else (n, b) :: put name a rest

/-- Takes away whatever is under a name. -/
def erase {α : Type} (name : String) (listing : Listing α) : Listing α :=
  listing.filter (·.1 != name)

variable {α : Type} {listing : Listing α} {name other : String} {a : α}

@[simp] theorem get?_put_self : (listing.put name a).get? name = some a := by
  induction listing with
  | nil => simp [put, get?]
  | cons e rest ih =>
    by_cases h : e.1 = name <;> simp_all [put, get?]

theorem get?_put_of_ne (h : other ≠ name) :
    (listing.put name a).get? other = listing.get? other := by
  induction listing with
  | nil => simp [put, get?, h.symm]
  | cons e rest ih =>
    by_cases hn : e.1 = name
    · subst hn
      simp [put, get?, h.symm]
    · by_cases ho : e.1 = other <;> simp_all [put, get?]

@[simp] theorem get?_erase_self : (listing.erase name).get? name = none := by
  induction listing with
  | nil => rfl
  | cons e rest ih =>
    by_cases h : e.1 = name <;> simp_all [erase, get?]

theorem get?_erase_of_ne (h : other ≠ name) :
    (listing.erase name).get? other = listing.get? other := by
  induction listing with
  | nil => rfl
  | cons e rest ih =>
    by_cases hn : e.1 = name
    · have : e.1 ≠ other := fun ho => h (ho.symm.trans hn)
      simp_all [erase, get?]
    · by_cases ho : e.1 = other <;> simp_all [erase, get?]

/-! ## Names -/

theorem mem_put {e : String × α} (h : e ∈ listing.put name a) : e = (name, a) ∨ e ∈ listing := by
  induction listing with
  | nil => exact .inl (List.mem_singleton.1 h)
  | cons first rest ih =>
    unfold put at h
    split at h
    · rcases List.mem_cons.1 h with rfl | h
      · exact .inl rfl
      · exact .inr (List.mem_cons_of_mem _ h)
    · rcases List.mem_cons.1 h with rfl | h
      · exact .inr List.mem_cons_self
      · exact (ih h).imp_right (List.mem_cons_of_mem _)

/-- No name comes twice because something is put. -/
theorem nodup_put (h : (listing.map (·.1)).Nodup) : ((listing.put name a).map (·.1)).Nodup := by
  induction listing with
  | nil => simp [put]
  | cons first rest ih =>
    obtain ⟨n, b⟩ := first
    obtain ⟨hfirst, hrest⟩ := List.nodup_cons.1 h
    unfold put
    split
    · next heq => exact List.nodup_cons.2 ⟨heq ▸ hfirst, hrest⟩
    · next hne =>
      refine List.nodup_cons.2 ⟨fun hmem => ?_, ih hrest⟩
      obtain ⟨e, he, heq⟩ := List.mem_map.1 hmem
      rcases mem_put he with rfl | he
      · exact hne heq.symm
      · exact hfirst (heq ▸ List.mem_map_of_mem he)

theorem get?_eq_some_iff (h : (listing.map (·.1)).Nodup) :
    listing.get? name = some a ↔ (name, a) ∈ listing := by
  induction listing with
  | nil => simp [get?]
  | cons first rest ih =>
    obtain ⟨n, b⟩ := first
    obtain ⟨hfirst, hrest⟩ := List.nodup_cons.1 h
    unfold get?
    by_cases heq : n = name
    · subst heq
      have hnone : (n, a) ∉ rest := fun hmem => hfirst (List.mem_map_of_mem (f := (·.1)) hmem)
      simp [hnone, eq_comm]
    · simp [heq, ih hrest, Ne.symm heq]

/-- What was put under a new name can be taken away again. -/
theorem erase_put (h : listing.get? name = none) : (listing.put name a).erase name = listing := by
  induction listing with
  | nil => simp [put, erase]
  | cons first rest ih =>
    obtain ⟨n, b⟩ := first
    by_cases heq : n = name
    · simp [get?, heq] at h
    · simp only [get?, heq, if_false] at h
      have hrest := ih h
      unfold erase at hrest ⊢
      simp only [put, heq, if_false, List.filter_cons]
      rw [hrest]
      simp [heq]

end Listing

end ElmIntake
