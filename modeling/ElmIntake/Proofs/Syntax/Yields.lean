import ElmIntake.Proofs.Syntax.AlikeItems
import ElmIntake.Proofs.Syntax.Balance

/-! # What a reader makes of bare tokens

    A reader that is run on tokens without places gives a tree without places, so what
    it makes of them can be said outright. It makes the same, but for places, of any
    tokens of these kinds.

    Each step of a reader has a lemma that says what it takes, and a longer reader
    is put together as its steps are. -/

namespace ElmIntake

namespace Reader

/-- Does a reader, where tokens of the kinds `ks` are ahead, give `a` and leave those of
    the kinds `ls`? -/
def Yields {α : Type} (reader : Reader α) (ks ls : List TokenKind) (a : α) : Prop :=
  reader ⟨.dummy, bare ks⟩ = .ok (a, ⟨.dummy, bare ls⟩)

namespace Yields

variable {α β : Type} {ks ls ms : List TokenKind} {a : α} {b : β}

theorem pure : Yields (Pure.pure a) ks ks a := rfl

theorem bind {reader : Reader α} {next : α → Reader β} (h : Yields reader ks ls a)
    (hnext : Yields (next a) ls ms b) : Yields (reader >>= next) ks ms b := by
  show Except.bind (reader ⟨.dummy, bare ks⟩) _ = _
  unfold Yields at h
  rw [h]
  exact hnext

theorem get : Yields MonadState.get ks ks (⟨.dummy, bare ks⟩ : Cursor) := rfl

theorem lift {x : Except SyntaxError α} (h : x = .ok a) : Yields (liftM x) ks ks a := by
  rw [h]
  rfl

/-- What a reader makes of bare tokens, one that is alike makes of all of their kinds. -/
theorem onTokens {γ : Type} {view : α → γ} {reader reader' : Reader α} (h : Yields reader ks [] a)
    (halike : Alike view reader' reader) {tokens : List Token} (htokens : kinds tokens = ks) :
    ∃ a', reader'.onTokens tokens = .ok a' ∧ view a' = view a := by
  have hbare : reader.onTokens (bare ks) = .ok a := by
    show Prod.fst <$> reader ⟨.dummy, bare ks⟩ = _
    unfold Yields at h
    rw [h]
    rfl
  have hseen := halike.onTokens (htokens.trans (kinds_bare ks).symm)
  rw [hbare] at hseen
  obtain ⟨e, e', -, hfail, -⟩ | ⟨a', b, ha, hb, hview⟩ := cases_of_seen_eq hseen
  · cases hfail
  · cases hb
    exact ⟨a', ha, hview⟩

end Yields

/-! ## Single steps -/

section

variable {kind : TokenKind} {ks : List TokenKind}

theorem here_yields : Yields here ks ks .dummy := by
  cases ks <;> rfl

theorem behind_yields : Yields behind ks ks .dummy := rfl

theorem since_yields : Yields (since .dummy) ks ks .dummy := rfl

theorem peek?_yields : Yields peek? ks ks ks.head? := by
  cases ks <;> rfl

theorem next_yields (what : Expected) : Yields (next what) (kind :: ks) ks ⟨kind, .dummy⟩ := rfl

theorem accept_yields : Yields (accept kind) (kind :: ks) ks true := by
  show (if some kind = some kind then _ else _ : Reader Bool) _ = _
  rw [if_pos rfl]
  rfl

theorem accept_yields_false (h : ks.head? ≠ some kind) : Yields (accept kind) ks ks false := by
  refine peek?_yields.bind ?_
  rw [if_neg h]
  exact .pure

theorem expect_yields (what : Expected) : Yields (expect kind what) (kind :: ks) ks .dummy :=
  here_yields.bind (accept_yields.bind .pure)

theorem expectKeyword_yields (word : Keyword) (what : Expected) :
    Yields (expectKeyword word what) (.keyword word :: ks) ks () :=
  (expect_yields what).bind .pure

theorem skip_bare (ks : List TokenKind) (n : Nat) :
    Cursor.skip ⟨.dummy, bare ks⟩ n = ⟨.dummy, bare (ks.drop n)⟩ := by
  have hbehind : (((bare ks).take n).getLast?.map (·.span)).getD .dummy = .dummy := by
    unfold bare
    rw [← List.map_take, List.getLast?_map]
    cases (ks.take n).getLast? <;> rfl
  have hahead : (bare ks).drop n = bare (ks.drop n) := by
    unfold bare
    rw [List.map_drop]
  unfold Cursor.skip
  rw [hbehind, hahead]

theorem modifyGet_yields {α : Type} (a : α) {ls : List TokenKind} {n : Nat} (h : ks.drop n = ls) :
    Yields (modifyGet fun c => (a, c.skip n)) ks ls a := by
  show Except.ok (a, Cursor.skip _ _) = _
  rw [skip_bare, h]

theorem remaining_yields : Yields remaining ks [] (bare ks) := by
  have hlength : (bare ks).length = ks.length := List.length_map _
  have hnone : ks.drop (bare ks).length = [] := by rw [hlength, List.drop_length]
  exact modifyGet_yields (bare ks) hnone

theorem expectEnd_yields (item : Complete) : Yields (expectEnd item) [] [] () := rfl

/-! ## Names -/

theorem upperName_yields (what : Expected) (name : String) :
    Yields (upperName what) (.upperName name :: ks) ks ⟨name, .dummy⟩ := rfl

theorem typeName_yields {name : String} (h : isDotted name = false) :
    Yields typeName (.upperName name :: ks) ks ⟨name, .dummy⟩ := by
  refine (upperName_yields _ name).bind ?_
  rw [h]
  exact .pure

theorem declarationName_yields {name : String} (h : isDotted name = false) :
    Yields declarationName (.lowerName name :: ks) ks ⟨name, .dummy⟩ := by
  refine peek?_yields.bind ?_
  simp only [List.head?_cons]
  rw [h]
  exact (next_yields _).bind .pure

theorem leadingLowerNames_bare (names : List String)
    (h : ∀ name, ks.head? ≠ some (.lowerName name)) :
    leadingLowerNames (bare (names.map .lowerName ++ ks)) = names.map (⟨·, .dummy⟩) := by
  induction names with
  | nil =>
    cases ks with
    | nil => rfl
    | cons kind ks =>
      cases kind with
      | lowerName name => exact absurd rfl (h name)
      | _ => rfl
  | cons name names ih =>
    rw [List.map_cons, List.cons_append, bare_cons, leadingLowerNames, ih]
    rfl

theorem typeParameters_yields {names : List String} (hnames : ∀ name ∈ names, isDotted name = false)
    (h : ∀ name, ks.head? ≠ some (.lowerName name)) :
    Yields typeParameters (names.map .lowerName ++ ks) ks (names.map (⟨·, .dummy⟩)) := by
  have hdotted :
      (names.map fun name => (⟨name, .dummy⟩ : Name)).find? (isDotted ·.node) = none := by
    rw [List.find?_eq_none]
    intro name hname
    obtain ⟨word, hword, rfl⟩ := List.mem_map.1 hname
    rw [hnames word hword]
    exact Bool.false_ne_true
  have hrest : (names.map TokenKind.lowerName ++ ks).drop names.length = ks := by
    have hlength : names.length = (names.map TokenKind.lowerName).length := by simp
    rw [hlength, List.drop_left]
  refine Yields.get.bind ?_
  dsimp only
  rw [leadingLowerNames_bare names h, hdotted]
  dsimp only
  rw [List.length_map]
  exact modifyGet_yields _ hrest

end

end Reader

end ElmIntake
