import ElmIntake.Proofs.Syntax.Reading

/-! # The roles of top-level items

    In a source that is accepted every item has a role, which its first two tokens
    tell. Documentation and signatures wait for the declaration that they stand
    before: the documentation that is separated from it by signatures only, and the
    signature that stands directly before it. -/

namespace ElmIntake

/-! ## Roles -/

/-- What an item is for. -/
inductive Role where
  | header
  | doc
  | import_
  | signature
  | declaration
  deriving Repr, DecidableEq

namespace Item

/-- The role of an item, by its first two tokens. -/
def role? (item : Item) : Option Role :=
  match item.first.kind, item.second? with
  | .doc _, _ => some .doc
  | .keyword .importWord, _ => some .import_
  | .keyword .moduleWord, _ | .keyword .effectWord, _
  | .keyword .portWord, some (.keyword .moduleWord) => some .header
  | .lowerName _, some .colon => some .signature
  | .keyword .typeWord, _ | .keyword .portWord, _ | .keyword .infixWord, _
  | .lowerName _, _ => some .declaration
  | _, _ => none

/-- The documentation comment that an item is. -/
def doc? (item : Item) : Option (Located String) :=
  match item.first.kind, item.rest with
  | .doc text, [] => some ⟨text, item.first.span⟩
  | _, _ => none

/-- The documentation that waits behind some items, given with the last one
    first: the last comment, if only signatures follow it. -/
def waitingDoc (before : List Item) : Option (Located String) :=
  ((before.dropWhile (·.role? = some .signature)).head?.filter (·.role? = some .doc)).bind doc?

/-- The signature that waits behind some items, given with the last one first:
    that of the last item. -/
def waitingSignature (before : List Item) : Option Signature :=
  (before.head?.filter (·.role? = some .signature)).bind fun item =>
    (Reader.signature.onTokens item.tokens).toOption

/-- Each of some items with those before it, the last one first; `before` are
    those before the first item. -/
def situated (before : List Item) : List Item → List (List Item × Item)
  | [] => []
  | item :: items => (before, item) :: situated (item :: before) items

/-- The declarations of some items, each with the items before it. -/
def declarations (items : List Item) : List (List Item × Item) :=
  (situated [] items).filter (·.2.role? = some .declaration)

/-- May `b` stand behind `a`? No import follows a signature or a declaration. -/
def MayPrecede (a b : Item) : Prop :=
  a.role? = some .signature ∨ a.role? = some .declaration → b.role? ≠ some .import_

/-- Is a declaration what an item reads as behind the items `before`, with what
    waits there? -/
def ReadsAs (kind : ModuleKind) (before : List Item) (item : Item) (d : Declaration) : Prop :=
  (Reader.declaration kind (waitingDoc before) (waitingSignature before)).onTokens item.tokens =
      .ok d ∧
    d.Takes (waitingDoc before) (waitingSignature before)

/-- The items without the first one if it has the role `role`. -/
def behind (role : Role) : List Item → List Item
  | [] => []
  | item :: items => if item.role? = some role then items else item :: items

end Item

/-! ## Cutting -/

namespace Item

/-- Every item but the first starts in the first column, and the other tokens of
    an item stand elsewhere. -/
theorem cut_columns (tokens : List Token) :
    (∀ item ∈ (cut tokens).tail, item.first.inFirstColumn = true) ∧
      ∀ item ∈ cut tokens, ∀ t ∈ item.rest, t.inFirstColumn = false := by
  induction tokens with
  | nil => exact ⟨by simp [cut], by simp [cut]⟩
  | cons t tokens ih =>
    obtain ⟨hfirst, hrest⟩ := ih
    unfold cut
    split
    · simp
    · next item items hcut =>
      rw [hcut] at hfirst hrest
      split
      · next hcolumn =>
        refine ⟨fun i hi => ?_, fun i hi => ?_⟩
        · rcases List.mem_cons.1 hi with rfl | hi
          · exact hcolumn
          · exact hfirst i hi
        · rcases List.mem_cons.1 hi with rfl | hi
          · simp
          · exact hrest i hi
      · next hcolumn =>
        refine ⟨hfirst, fun i hi => ?_⟩
        rcases List.mem_cons.1 hi with rfl | hi
        · intro t ht
          rcases List.mem_cons.1 ht with rfl | ht
          · simpa using hcolumn
          · exact hrest item List.mem_cons_self t ht
        · exact hrest i (List.mem_cons_of_mem _ hi)

/-- If the first item starts in the first column, too, then exactly the first
    tokens of items stand there. -/
theorem cut_columns_of_first {tokens : List Token}
    (h : ∀ item ∈ (cut tokens).head?, item.first.inFirstColumn = true) :
    ∀ item ∈ cut tokens, item.first.inFirstColumn = true ∧
      ∀ t ∈ item.rest, t.inFirstColumn = false := by
  obtain ⟨htail, hrest⟩ := cut_columns tokens
  intro item hitem
  refine ⟨?_, hrest item hitem⟩
  cases hcut : cut tokens with
  | nil =>
    rw [hcut] at hitem
    cases hitem
  | cons first items =>
    rw [hcut] at hitem htail h
    rcases List.mem_cons.1 hitem with rfl | hitem
    · exact h item rfl
    · exact htail item hitem

end Item

/-! ## Behind the first item -/

namespace Item

variable {role other : Role} {item : Item} {items : List Item}

theorem behind_of_role (h : item.role? = some role) : behind role (item :: items) = items :=
  if_pos h

theorem behind_of_ne (h : item.role? ≠ some role) :
    behind role (item :: items) = item :: items :=
  if_neg h

theorem filter_behind (hne : other ≠ role) (items : List Item) :
    (behind role items).filter (·.role? = some other) = items.filter (·.role? = some other) := by
  cases items with
  | nil => rfl
  | cons item items =>
    by_cases hrole : item.role? = some role
    · rw [behind_of_role hrole]
      simp [hrole, hne.symm]
    · rw [behind_of_ne hrole]

theorem mem_behind (role : Role) (h : item ∈ items) :
    (items.head? = some item ∧ item.role? = some role) ∨ item ∈ behind role items := by
  cases items with
  | nil => cases h
  | cons first items =>
    by_cases hrole : first.role? = some role
    · rw [behind_of_role hrole]
      rcases List.mem_cons.1 h with rfl | h
      · exact .inl ⟨rfl, hrole⟩
      · exact .inr h
    · rw [behind_of_ne hrole]
      exact .inr h

theorem mem_behind_of_mem_tail (h : item ∈ items.tail) : item ∈ behind role items := by
  cases items with
  | nil => cases h
  | cons first items =>
    by_cases hrole : first.role? = some role
    · rwa [behind_of_role hrole]
    · rw [behind_of_ne hrole]
      exact List.mem_cons_of_mem _ h

theorem pairwise_of_behind {R : Item → Item → Prop} (hfirst : ∀ a b, a.role? = some role → R a b)
    (h : (behind role items).Pairwise R) : items.Pairwise R := by
  cases items with
  | nil => exact .nil
  | cons first items =>
    by_cases hrole : first.role? = some role
    · rw [behind_of_role hrole] at h
      exact List.pairwise_cons.2 ⟨fun b _ => hfirst first b hrole, h⟩
    · rwa [behind_of_ne hrole] at h

end Item

/-! ## What waits -/

namespace Item

variable {item : Item} {before items : List Item}

theorem waitingDoc_cons (item : Item) (before : List Item) :
    waitingDoc (item :: before) =
      if item.role? = some .signature then waitingDoc before
      else if item.role? = some .doc then item.doc? else none := by
  unfold waitingDoc
  by_cases hsignature : item.role? = some .signature
  · rw [List.dropWhile_cons_of_pos (by simpa using hsignature), if_pos hsignature]
  · rw [List.dropWhile_cons_of_neg (by simpa using hsignature), if_neg hsignature, List.head?_cons]
    by_cases hdoc : item.role? = some .doc <;> simp [Option.filter, hdoc]

theorem waitingSignature_cons (item : Item) (before : List Item) :
    waitingSignature (item :: before) =
      if item.role? = some .signature then (Reader.signature.onTokens item.tokens).toOption
      else none := by
  unfold waitingSignature
  by_cases hsignature : item.role? = some .signature <;> simp [Option.filter, hsignature]

theorem situated_append (before items : List Item) (item : Item) :
    situated before (items ++ [item]) =
      situated before items ++ [(items.reverse ++ before, item)] := by
  induction items generalizing before with
  | nil => rfl
  | cons first items ih =>
    rw [List.cons_append, situated, ih, situated]
    simp

theorem declarations_append_self (h : item.role? = some .declaration) :
    declarations (items ++ [item]) = declarations items ++ [(items.reverse, item)] := by
  unfold declarations
  rw [situated_append, List.filter_append]
  simp [h]

theorem declarations_append_of_ne (h : item.role? ≠ some .declaration) :
    declarations (items ++ [item]) = declarations items := by
  unfold declarations
  rw [situated_append, List.filter_append]
  simp [h]

theorem role_eq_doc_iff :
    item.role? = some .doc ↔ ∃ text, item.first.kind = .doc text := by
  unfold role?
  split <;> simp_all

theorem role_of_lowerName {name : String} (h : item.first.kind = .lowerName name) :
    item.role? = some .signature ∨ item.role? = some .declaration := by
  unfold role?
  rw [h]
  split <;> simp_all

end Item

end ElmIntake
