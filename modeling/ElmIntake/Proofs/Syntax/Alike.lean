import ElmIntake.Proofs.Syntax.Unplaced
import ElmIntake.Syntax.Grammar

/-! # Readers look at kinds alone

    The same reader, run on two lists of tokens of the same kinds, gives results
    that differ in places only, fails in both runs or in none, and then for the
    same cause. Each step of a reader has a lemma that says so, and a longer
    reader is put together as its steps are. -/

namespace ElmIntake

/-! ## Outcomes and readers -/

/-- An outcome without its places: what `view` leaves of the result, or the cause
    of the failure. -/
def seen {α β : Type} (view : α → β) : Except SyntaxError α → Except SyntaxCause β
  | .ok a => .ok (view a)
  | .error e => .error e.cause

section

variable {α β γ δ : Type} {view : α → γ} {wide : β → δ}

/-- Two outcomes that look the same are two failures or two results. -/
theorem cases_of_seen_eq {x x' : Except SyntaxError α} (h : seen view x = seen view x') :
    (∃ e e', x = .error e ∧ x' = .error e' ∧ e.cause = e'.cause) ∨
      ∃ a a', x = .ok a ∧ x' = .ok a' ∧ view a = view a' := by
  cases x with
  | error e =>
    cases x' with
    | error e' => exact .inl ⟨e, e', rfl, rfl, Except.error.inj h⟩
    | ok a' => cases h
  | ok a =>
    cases x' with
    | error e' => cases h
    | ok a' => exact .inr ⟨a, a', rfl, rfl, Except.ok.inj h⟩

theorem seen_bind {x x' : Except SyntaxError α} {next next' : α → Except SyntaxError β}
    (h : seen view x = seen view x')
    (hnext : ∀ a a', view a = view a' → seen wide (next a) = seen wide (next' a')) :
    seen wide (x >>= next) = seen wide (x' >>= next') := by
  obtain ⟨e, e', rfl, rfl, hcause⟩ | ⟨a, a', rfl, rfl, hview⟩ := cases_of_seen_eq h
  · exact congrArg Except.error hcause
  · exact hnext a a' hview

end

namespace Reader

/-- Do two readers, run where tokens of the same kinds are ahead, end alike? Then
    tokens of the same kinds are ahead again, and their results are the same to
    `view`. -/
def Alike {α γ : Type} (view : α → γ) (reader reader' : Reader α) : Prop :=
  ∀ c c' : Cursor, kinds c.ahead = kinds c'.ahead →
    seen (fun x => (view x.1, kinds x.2.ahead)) (reader c) =
      seen (fun x => (view x.1, kinds x.2.ahead)) (reader' c')

/-- What remains of a place. -/
def noPlace (_ : Span) : Unit := ()

namespace Alike

variable {α β γ δ : Type} {view : α → γ} {wide : β → δ}

theorem pure {a a' : α} (h : view a = view a') : Alike view (Pure.pure a) (Pure.pure a') := by
  intro c c' hc
  exact congrArg Except.ok (Prod.ext h hc)

theorem bind {reader reader' : Reader α} {next next' : α → Reader β}
    (h : Alike view reader reader')
    (hnext : ∀ a a', view a = view a' → Alike wide (next a) (next' a')) :
    Alike wide (reader >>= next) (reader' >>= next') := by
  intro c c' hc
  -- The first step fails alike, or leaves tokens of the same kinds.
  refine seen_bind (h c c' hc) fun x x' hx => ?_
  obtain ⟨hview, hahead⟩ := Prod.mk.inj hx
  exact hnext x.1 x'.1 hview x.2 x'.2 hahead

/-- A step whose result has no places. -/
theorem bind_same {reader reader' : Reader α} {next next' : α → Reader β}
    (h : Alike id reader reader') (hnext : ∀ a, Alike wide (next a) (next' a)) :
    Alike wide (reader >>= next) (reader' >>= next') :=
  h.bind fun a a' (ha : a = a') => by
    cases ha
    exact hnext a

theorem lift {x x' : Except SyntaxError α} (h : seen view x = seen view x') :
    Alike view (liftM x) (liftM x') := by
  intro c c' hc
  refine seen_bind h fun a a' ha => ?_
  exact congrArg Except.ok (Prod.ext ha hc)

theorem failAt (cause : SyntaxCause) (span span' : Span) :
    Alike view (Reader.failAt cause span) (Reader.failAt cause span') :=
  fun _ _ _ => rfl

theorem modifyGet {f f' : Cursor → α × Cursor}
    (h : ∀ c c', kinds c.ahead = kinds c'.ahead →
      view (f c).1 = view (f' c').1 ∧ kinds (f c).2.ahead = kinds (f' c').2.ahead) :
    Alike view (MonadState.modifyGet f) (MonadState.modifyGet f') := by
  intro c c' hc
  exact congrArg Except.ok (Prod.ext (h c c' hc).1 (h c c' hc).2)

theorem get : Alike (kinds ·.ahead) (MonadState.get : Reader Cursor) MonadState.get :=
  fun _ _ hc => congrArg Except.ok (Prod.ext hc hc)

/-- Outcomes of a whole item. -/
theorem onTokens {reader reader' : Reader α} {tokens tokens' : List Token}
    (h : Alike view reader reader') (htokens : kinds tokens = kinds tokens') :
    seen view (reader.onTokens tokens) = seen view (reader'.onTokens tokens') := by
  have hrun := h (.start tokens) (.start tokens') htokens
  change seen view (Prod.fst <$> reader (.start tokens)) =
    seen view (Prod.fst <$> reader' (.start tokens'))
  obtain ⟨e, e', he, he', hcause⟩ | ⟨x, x', hx, hx', hview⟩ := cases_of_seen_eq hrun
  · rw [he, he']
    exact congrArg Except.error hcause
  · rw [hx, hx']
    exact congrArg Except.ok (Prod.mk.inj hview).1

end Alike

/-! ## Single steps -/

section

variable {α γ : Type} {view : α → γ}

theorem peek?_alike : Alike id peek? peek? :=
  Alike.get.bind fun _ _ hc => .pure (head?_of_kinds hc)

theorem peekSecond?_alike : Alike id peekSecond? peekSecond? :=
  Alike.get.bind fun _ _ hc => .pure (getElem?_of_kinds hc 1)

theorem here_alike : Alike noPlace here here := Alike.get.bind fun _ _ _ => .pure rfl

theorem behind_alike : Alike noPlace behind behind := Alike.get.bind fun _ _ _ => .pure rfl

theorem since_alike (first first' : Span) : Alike noPlace (since first) (since first') :=
  behind_alike.bind fun _ _ _ => .pure rfl

theorem fail_alike (cause : SyntaxCause) : Alike view (fail cause) (fail cause) :=
  here_alike.bind fun _ _ _ => .failAt cause _ _

theorem missing_alike (what : Expected) : Alike view (missing what) (missing what) :=
  fail_alike _

theorem kinds_skip {c c' : Cursor} (h : kinds c.ahead = kinds c'.ahead) (n : Nat) :
    kinds (c.skip n).ahead = kinds (c'.skip n).ahead :=
  drop_of_kinds h n

theorem next_alike (what : Expected) : Alike (·.kind) (next what) (next what) := by
  refine Alike.get.bind fun c c' hc => ?_
  obtain ⟨hnone, hnone'⟩ | ⟨t, t', ht, ht', hkind⟩ := cases_of_map_eq (head?_of_kinds hc)
  · rw [hnone, hnone']
    exact missing_alike what
  · rw [ht, ht']
    exact .modifyGet fun d d' hd => ⟨hkind, kinds_skip hd 1⟩

theorem accept_alike (kind : TokenKind) : Alike id (accept kind) (accept kind) := by
  refine peek?_alike.bind_same fun ahead => ?_
  split
  · exact .modifyGet fun c c' hc => ⟨rfl, kinds_skip hc 1⟩
  · exact .pure rfl

theorem expect_alike (kind : TokenKind) (what : Expected) :
    Alike noPlace (expect kind what) (expect kind what) := by
  refine here_alike.bind fun span span' _ => (accept_alike kind).bind_same fun accepted => ?_
  split
  · exact .pure rfl
  · exact missing_alike what

theorem expectKeyword_alike (word : Keyword) (what : Expected) :
    Alike id (expectKeyword word what) (expectKeyword word what) :=
  (expect_alike _ what).bind fun _ _ _ => .pure rfl

theorem remaining_alike : Alike kinds remaining remaining := by
  refine .modifyGet fun c c' hc => ⟨hc, ?_⟩
  rw [length_of_kinds hc]
  exact kinds_skip hc _

theorem expectEnd_alike (item : Complete) : Alike id (expectEnd item) (expectEnd item) := by
  refine Alike.get.bind fun c c' hc => ?_
  obtain ⟨hnone, hnone'⟩ | ⟨t, t', ht, ht', hkind⟩ := cases_of_map_eq (head?_of_kinds hc)
  · rw [hnone, hnone']
    exact .pure rfl
  · rw [ht, ht']
    simp only [Token.text, hkind]
    exact .failAt _ _ _

end

end Reader

end ElmIntake
