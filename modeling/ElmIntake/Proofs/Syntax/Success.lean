import ElmIntake.Proofs.Syntax.Unplaced
import ElmIntake.Syntax.Grammar

/-! # What a reader that succeeds has read

    A reader that is made of steps succeeds just if its steps do, one after the other. So
    a success is taken apart from the first step on, and each single step that succeeds
    says which tokens it found ahead, and where it leaves the reader. -/

namespace ElmIntake

namespace Reader

variable {α β : Type} {c c' : Cursor} {a : α} {b : β} {tokens : List Token}

/-! ## Steps one after the other -/

theorem bind_ok_iff {reader : Reader α} {next : α → Reader β} :
    (reader >>= next) c = .ok (b, c') ↔
      ∃ a c₁, reader c = .ok (a, c₁) ∧ next a c₁ = .ok (b, c') := by
  show Except.bind (reader c) (fun x => next x.1 x.2) = _ ↔ _
  cases hfirst : reader c with
  | error e =>
    constructor
    · intro h
      cases h
    · rintro ⟨a, c₁, h, -⟩
      cases h
  | ok x =>
    constructor
    · intro h
      exact ⟨x.1, x.2, rfl, h⟩
    · rintro ⟨a, c₁, h, hnext⟩
      cases h
      exact hnext

/-- A step whose end is known. -/
theorem bind_of_ok {reader : Reader α} {next : α → Reader β} {c₁ : Cursor}
    (h : reader c = .ok (a, c₁)) : (reader >>= next) c = next a c₁ := by
  show Except.bind (reader c) (fun x => next x.1 x.2) = _
  rw [h]
  rfl

theorem pure_ok_iff {a' : α} : (pure a : Reader α) c = .ok (a', c') ↔ a = a' ∧ c = c' := by
  constructor
  · intro h
    cases h
    exact ⟨rfl, rfl⟩
  · rintro ⟨rfl, rfl⟩
    rfl

theorem lift_ok_iff {x : Except SyntaxError α} :
    (liftM x : Reader α) c = .ok (a, c') ↔ x = .ok a ∧ c = c' := by
  cases x with
  | error e =>
    constructor
    · intro h
      cases h
    · rintro ⟨h, -⟩
      cases h
  | ok a' =>
    constructor
    · intro h
      cases h
      exact ⟨rfl, rfl⟩
    · rintro ⟨h, rfl⟩
      cases h
      rfl

theorem mapM_lift_ok_iff {f : α → Except SyntaxError β} {xs : List α} {ys : List β} :
    (xs.mapM fun x => (liftM (f x) : Reader β)) c = .ok (ys, c') ↔
      List.Forall₂ (fun x y => f x = .ok y) xs ys ∧ c = c' := by
  induction xs generalizing ys with
  | nil =>
    rw [List.mapM_nil, pure_ok_iff, List.forall₂_nil_left_iff, eq_comm]
  | cons x xs ih =>
    rw [List.mapM_cons, bind_ok_iff, List.forall₂_cons_left_iff]
    constructor
    · rintro ⟨y, c₁, hy, hrest⟩
      obtain ⟨ys', c₂, hys, hpure⟩ := bind_ok_iff.1 hrest
      obtain ⟨hfirst, rfl⟩ := lift_ok_iff.1 hy
      obtain ⟨rfl, rfl⟩ := pure_ok_iff.1 hpure
      obtain ⟨hothers, rfl⟩ := ih.1 hys
      exact ⟨⟨y, ys', hfirst, hothers, rfl⟩, rfl⟩
    · rintro ⟨⟨y, ys', hy, hys, rfl⟩, rfl⟩
      refine ⟨y, c, lift_ok_iff.2 ⟨hy, rfl⟩, bind_ok_iff.2 ?_⟩
      exact ⟨ys', c, ih.2 ⟨hys, rfl⟩, rfl⟩

theorem onTokens_ok_iff {reader : Reader α} :
    reader.onTokens tokens = .ok a ↔ ∃ c', reader (.start tokens) = .ok (a, c') := by
  show Prod.fst <$> reader (.start tokens) = _ ↔ _
  cases hrun : reader (.start tokens) with
  | error e =>
    constructor
    · intro h
      cases h
    · rintro ⟨c', h⟩
      cases h
  | ok x =>
    constructor
    · intro h
      cases h
      exact ⟨x.2, rfl⟩
    · rintro ⟨c', h⟩
      cases h
      rfl

/-! ## Single steps -/

section

variable {kind : TokenKind} {word : Keyword} {what : Expected} {t : Token} {span : Span}

theorem here_ok (h : here c = .ok (span, c')) : c = c' := by
  cases h
  rfl

theorem since_ok {first : Span} (h : since first c = .ok (span, c')) : c = c' := by
  cases h
  rfl

theorem peek?_ok {kind? : Option TokenKind} (h : peek? c = .ok (kind?, c')) :
    (kinds c.ahead).head? = kind? ∧ c = c' := by
  cases h
  refine ⟨?_, rfl⟩
  unfold kinds
  rw [List.head?_map]

theorem next_ok (h : next what c = .ok (t, c')) : kinds c.ahead = t.kind :: kinds c'.ahead := by
  obtain ⟨behind, ahead⟩ := c
  cases ahead with
  | nil => cases h
  | cons first rest =>
    change Except.ok (first, Cursor.skip ⟨behind, first :: rest⟩ 1) = _ at h
    cases h
    rfl

/-- A token that is accepted is taken, and any other one is left. -/
theorem accept_ok {accepted : Bool} (h : accept kind c = .ok (accepted, c')) :
    kinds c.ahead = (if accepted then [kind] else []) ++ kinds c'.ahead := by
  obtain ⟨kind?, c₁, hpeek, hrest⟩ := bind_ok_iff.1 h
  obtain ⟨hhead, rfl⟩ := peek?_ok hpeek
  by_cases hkind : kind? = some kind
  · rw [if_pos hkind] at hrest
    cases hrest
    rw [hkind] at hhead
    obtain ⟨ks, hks⟩ := List.head?_eq_some_iff.1 hhead
    show kinds c.ahead = kind :: kinds (c.ahead.drop 1)
    unfold kinds at hks ⊢
    rw [List.map_drop, hks]
    rfl
  · rw [if_neg hkind] at hrest
    cases hrest
    rfl

theorem expect_ok (h : expect kind what c = .ok (span, c')) :
    kinds c.ahead = kind :: kinds c'.ahead := by
  obtain ⟨place, c₁, hhere, hrest⟩ := bind_ok_iff.1 h
  obtain rfl := here_ok hhere
  obtain ⟨accepted, c₂, haccept, hend⟩ := bind_ok_iff.1 hrest
  have htook := accept_ok haccept
  cases accepted with
  | true =>
    cases hend
    exact htook
  | false => cases hend

theorem expectKeyword_ok {u : Unit} (h : expectKeyword word what c = .ok (u, c')) :
    kinds c.ahead = .keyword word :: kinds c'.ahead := by
  obtain ⟨place, c₁, hexpect, hend⟩ := bind_ok_iff.1 h
  cases hend
  exact expect_ok hexpect

theorem expectEnd_ok {item : Complete} {u : Unit} (h : expectEnd item c = .ok (u, c')) :
    kinds c.ahead = [] ∧ c = c' := by
  obtain ⟨behind, ahead⟩ := c
  cases ahead with
  | nil =>
    cases h
    exact ⟨rfl, rfl⟩
  | cons t rest => cases h

theorem upperName_ok {name : Name} (h : upperName what c = .ok (name, c')) :
    kinds c.ahead = .upperName name.node :: kinds c'.ahead := by
  obtain ⟨kind?, c₁, hpeek, hrest⟩ := bind_ok_iff.1 h
  obtain ⟨hhead, rfl⟩ := peek?_ok hpeek
  split at hrest
  · next word =>
    obtain ⟨t, c₂, hnext, hend⟩ := bind_ok_iff.1 hrest
    cases hend
    have htook := next_ok hnext
    rw [htook] at hhead
    rw [htook, Option.some.inj hhead]
  · cases hrest

end

end Reader

end ElmIntake
