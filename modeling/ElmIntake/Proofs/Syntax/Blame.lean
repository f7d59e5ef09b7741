import ElmIntake.Proofs.Syntax.PlacedItems

/-! # Who is to blame

    When an item cannot be read, what is blamed stands in this item: one of its
    tokens, most often, or the last one if it ends too early. No reader looks
    beyond the item, and none is without a token to point at, since every item has
    one.

    The proofs follow the readers, as those of what is read do (`Reader.Moves`): of
    two readers one after the other either the first one fails, or the second one
    where the first one has moved to. -/

namespace ElmIntake

/-! ## Cursors with a token to point at -/

namespace Cursor

variable {tokens rest : List Token} {t : Token} {c : Cursor}

/-- Is the cursor behind some token of the item? -/
def IsPast (tokens : List Token) (c : Cursor) : Prop := c.IsIn tokens ∧ c.behind.IsOf tokens

/-- In an item there is always something to point at: if nothing is ahead, then the
    last token is behind. -/
theorem IsIn.span_isOf (h : c.IsIn (t :: rest)) : c.span.IsOf (t :: rest) := by
  obtain ⟨behind, ahead⟩ := c
  cases ahead with
  | cons next ahead => exact .of_mem (h.ahead_suffix.subset List.mem_cons_self)
  | nil =>
    obtain ⟨read, htokens, hbehind⟩ := h
    rw [List.append_nil] at htokens
    cases htokens
    change behind = _ at hbehind
    show behind.IsOf (t :: rest)
    rw [hbehind, List.getLast?_eq_some_getLast (List.cons_ne_nil _ _)]
    exact .of_mem (List.getLast_mem _)

end Cursor

namespace Reader

/-! ## Blaming -/

/-- Does the reader, wherever it fails from a place with the property `p`, blame
    something in the tokens? -/
def Blames {α : Type} (tokens : List Token) (p : Cursor → Prop) (reader : Reader α) : Prop :=
  ∀ c e, p c → reader c = .error e → e.span.IsOf tokens

namespace Blames

variable {α β : Type} {tokens : List Token} {p q : Cursor → Prop} {P : α → Prop}

theorem pure (a : α) : Blames tokens p (Pure.pure a) := by
  intro c e _ he
  cases he

theorem failAt {span : Span} (cause : SyntaxCause) (h : span.IsOf tokens) :
    Blames tokens p (Reader.failAt cause span : Reader α) := by
  intro c e _ he
  cases he
  exact h

theorem bind {reader : Reader α} {next : α → Reader β} (h : Blames tokens p reader)
    (hmoves : Moves p q reader P) (hnext : ∀ a, P a → Blames tokens q (next a)) :
    Blames tokens p (reader >>= next) := by
  intro c e hc he
  change (reader c >>= fun x => next x.1 x.2) = _ at he
  cases hreader : reader c with
  | error e' =>
    rw [hreader] at he
    cases he
    exact h c _ hc hreader
  | ok x =>
    rw [hreader] at he
    obtain ⟨hx, ha⟩ := hmoves _ _ _ hc hreader
    exact hnext x.1 ha x.2 e hx he

theorem lift {x : Except SyntaxError α} (h : ∀ e, x = .error e → e.span.IsOf tokens) :
    Blames tokens p (liftM x : Reader α) := by
  intro c e _ he
  cases x with
  | error e' =>
    cases he
    exact h e rfl
  | ok a => cases he

theorem mapM {step : α → Reader β} {xs : List α} (h : ∀ x ∈ xs, Blames tokens p (step x))
    (hmoves : ∀ x ∈ xs, Moves p p (step x) fun _ => True) : Blames tokens p (xs.mapM step) := by
  induction xs with
  | nil =>
    rw [List.mapM_nil]
    exact .pure _
  | cons x xs ih =>
    rw [List.mapM_cons]
    refine (h x List.mem_cons_self).bind (hmoves x List.mem_cons_self) fun y _ => ?_
    have hrest := fun x' hx' => hmoves x' (List.mem_cons_of_mem x hx')
    refine (ih (fun x' hx' => h x' (List.mem_cons_of_mem x hx')) hrest).bind
      (Moves.mapM hrest) fun ys _ => .pure _

theorem get : Blames tokens p (MonadState.get : Reader Cursor) := by
  intro c e _ he
  cases he

theorem start {reader : Reader α} (h : Blames tokens (Cursor.IsIn tokens) reader) :
    Blames tokens (· = .start tokens) reader := by
  rintro c e rfl he
  exact h _ e (Cursor.isIn_start tokens) he

/-- What is blamed when all the tokens of an item are read. -/
theorem onTokens {reader : Reader α} {e : SyntaxError}
    (h : Blames tokens (· = .start tokens) reader) (he : reader.onTokens tokens = .error e) :
    e.span.IsOf tokens := by
  change (Prod.fst <$> reader (.start tokens)) = _ at he
  cases hreader : reader (.start tokens) with
  | error e' =>
    rw [hreader] at he
    cases he
    exact h _ _ rfl hreader
  | ok x =>
    rw [hreader] at he
    cases he

end Blames

/-! ## Single steps -/

section

variable {tokens rest : List Token} {t : Token} {α : Type} {p : Cursor → Prop}

theorem peek?_blames : Blames tokens p peek? := Blames.get.bind Moves.get fun _ _ => .pure _

theorem peekSecond?_blames : Blames tokens p peekSecond? :=
  Blames.get.bind Moves.get fun _ _ => .pure _

theorem atDots_blames : Blames tokens p atDots := peek?_blames.bind peek?_moves fun _ _ => .pure _

theorem here_blames : Blames tokens p here := Blames.get.bind Moves.get fun _ _ => .pure _

theorem behind_blames : Blames tokens p behind := Blames.get.bind Moves.get fun _ _ => .pure _

theorem since_blames (first : Span) : Blames tokens p (since first) :=
  behind_blames.bind behind_moves fun _ _ => .pure _

/-- The token ahead is one of the item, or else the last one was read. -/
theorem here_moves_isOf :
    Moves (Cursor.IsIn (t :: rest)) (Cursor.IsIn (t :: rest)) here (·.IsOf (t :: rest)) := by
  intro c a c' hc ha
  cases ha
  exact ⟨hc, hc.span_isOf⟩

theorem behind_moves_isOf :
    Moves (Cursor.IsPast tokens) (Cursor.IsIn tokens) behind (·.IsOf tokens) := by
  intro c a c' hc ha
  cases ha
  exact hc

theorem fail_blames (cause : SyntaxCause) :
    Blames (t :: rest) (Cursor.IsIn (t :: rest)) (fail cause : Reader α) :=
  here_blames.bind here_moves_isOf fun _ hspan => .failAt cause hspan

theorem missing_blames (what : Expected) :
    Blames (t :: rest) (Cursor.IsIn (t :: rest)) (missing what : Reader α) :=
  fail_blames _

theorem next_blames (what : Expected) :
    Blames (t :: rest) (Cursor.IsIn (t :: rest)) (next what) := by
  refine Blames.get.bind Moves.get fun c _ => ?_
  split
  · intro c e _ he
    cases he
  · exact missing_blames what

theorem accept_blames (kind : TokenKind) : Blames tokens p (accept kind) := by
  refine peek?_blames.bind peek?_moves fun ahead _ => ?_
  split
  · intro c e _ he
    cases he
  · exact .pure _

theorem expect_blames (kind : TokenKind) (what : Expected) :
    Blames (t :: rest) (Cursor.IsIn (t :: rest)) (expect kind what) := by
  refine here_blames.bind here_moves fun span _ => ?_
  refine (accept_blames kind).bind (accept_moves kind) fun accepted _ => ?_
  split
  · exact .pure _
  · exact missing_blames what

/-- A token is accepted by its kind, and is behind the cursor then. -/
theorem accept_cons (kind : TokenKind) (before : Span) (t : Token) (ahead : List Token) :
    accept kind ⟨before, t :: ahead⟩ =
      if t.kind = kind then .ok (true, Cursor.skip ⟨before, t :: ahead⟩ 1)
      else .ok (false, ⟨before, t :: ahead⟩) := by
  change (if some t.kind = some kind then
    (MonadState.modifyGet fun c => (true, c.skip 1) : Reader Bool) else Pure.pure false) _ = _
  simp only [Option.some.injEq]
  split <;> rfl

/-- What was expected and found is a token of the item, and behind the cursor now. -/
theorem expect_moves_past (kind : TokenKind) (what : Expected) :
    Moves (Cursor.IsIn tokens) (Cursor.IsPast tokens) (expect kind what) (·.IsOf tokens) := by
  rintro ⟨before, ahead⟩ a c' hc ha
  cases ahead with
  | nil => cases ha
  | cons t ahead =>
    have ht : t.span.IsOf tokens := .of_mem (hc.ahead_suffix.subset List.mem_cons_self)
    change (accept kind ⟨before, t :: ahead⟩ >>= fun x =>
      (if x.1 = true then Pure.pure t.span else missing what : Reader Span) x.2) = _ at ha
    rw [accept_cons] at ha
    by_cases hkind : t.kind = kind
    · rw [if_pos hkind] at ha
      cases ha
      exact ⟨⟨hc.skip 1, ht⟩, ht⟩
    · rw [if_neg hkind] at ha
      cases ha

theorem expect_moves_isOf (kind : TokenKind) (what : Expected) :
    Moves (Cursor.IsIn tokens) (Cursor.IsIn tokens) (expect kind what) (·.IsOf tokens) := by
  intro c a c' hc ha
  obtain ⟨hpast, hspan⟩ := expect_moves_past kind what c a c' hc ha
  exact ⟨hpast.1, hspan⟩

/-- Only the end of an item may be expected where a token is ahead, so this token is
    to blame. -/
theorem expectEnd_blames (item : Complete) :
    Blames tokens (Cursor.IsIn tokens) (expectEnd item) := by
  rintro ⟨before, ahead⟩ e hc he
  cases ahead with
  | nil => cases he
  | cons t ahead =>
    cases he
    exact .of_mem (hc.ahead_suffix.subset List.mem_cons_self)

theorem expectKeyword_blames (word : Keyword) (what : Expected) :
    Blames (t :: rest) (Cursor.IsIn (t :: rest)) (expectKeyword word what) :=
  (expect_blames _ what).bind (expect_moves _ _) fun _ _ => .pure _

theorem remaining_blames : Blames tokens p remaining := by
  intro c e _ he
  cases he

end

section

variable {rest : List Token} {t : Token}

/-! ## Names -/

theorem upperName_blames (what : Expected) :
    Blames (t :: rest) (Cursor.IsIn (t :: rest)) (upperName what) := by
  unfold upperName
  refine peek?_blames.bind peek?_moves fun ahead _ => ?_
  split
  · exact (next_blames _).bind (next_moves _) fun _ _ => .pure _
  · exact missing_blames what

theorem moduleName_blames (what : Expected) :
    Blames (t :: rest) (Cursor.IsIn (t :: rest)) (moduleName what) :=
  (upperName_blames what).bind (upperName_moves what) fun _ _ => .pure _

theorem typeName_blames : Blames (t :: rest) (Cursor.IsIn (t :: rest)) typeName := by
  unfold typeName
  refine (upperName_blames _).bind (upperName_moves _) fun name hname => ?_
  split
  · exact .failAt _ hname.span
  · exact .pure _

theorem declarationName_blames :
    Blames (t :: rest) (Cursor.IsIn (t :: rest)) declarationName := by
  unfold declarationName
  refine peek?_blames.bind peek?_moves fun ahead _ => ?_
  split
  · split
    · exact fail_blames _
    · exact (next_blames _).bind (next_moves _) fun _ _ => .pure _
  · exact missing_blames _

theorem typeParameters_blames :
    Blames (t :: rest) (Cursor.IsIn (t :: rest)) typeParameters := by
  unfold typeParameters
  refine Blames.get.bind Moves.get fun c hc => ?_
  dsimp only
  split
  · next name hname =>
    have hmem := List.mem_of_find?_eq_some hname
    exact .failAt _ (leadingLowerNames_isOf hc.ahead_suffix.subset name hmem).span
  · intro c e _ he
    cases he

/-! ## Exposing lists -/

theorem dotsAndClose_blames : Blames (t :: rest) (Cursor.IsIn (t :: rest)) dotsAndClose :=
  (next_blames _).bind (next_moves _) fun _ _ => expect_blames _ _

theorem exposedItem_blames : Blames (t :: rest) (Cursor.IsIn (t :: rest)) exposedItem := by
  unfold exposedItem
  refine (next_blames _).bind (next_moves _) fun first hfirst => ?_
  have hspan : first.span.IsOf (t :: rest) := .of_mem hfirst
  split
  · split
    · exact .failAt _ hspan
    · exact .pure _
  · split
    · exact .failAt _ hspan
    · refine (accept_blames _).bind (accept_moves _) fun opened _ => ?_
      split
      · refine atDots_blames.bind atDots_moves fun dots _ => ?_
        split
        · exact missing_blames _
        · refine dotsAndClose_blames.bind dotsAndClose_moves fun close _ => ?_
          exact (since_blames _).bind (since_moves _) fun _ _ => .pure _
      · exact (since_blames _).bind (since_moves _) fun _ _ => .pure _
  · refine (next_blames _).bind (next_moves _) fun symbol hsymbol => ?_
    split
    · refine (expect_blames _ _).bind (expect_moves _ _) fun close _ => ?_
      exact (since_blames _).bind (since_moves _) fun _ _ => .pure _
    · exact .failAt _ (.of_mem hsymbol)
  · exact .failAt _ hspan
  · exact .failAt _ hspan

/-- The induction is on the fuel. -/
theorem exposedItems_blames (fuel : Nat) :
    Blames (t :: rest) (Cursor.IsIn (t :: rest)) (exposedItems fuel) := by
  induction fuel with
  | zero => exact missing_blames _
  | succ fuel ih =>
    refine exposedItem_blames.bind exposedItem_moves fun item _ => ?_
    refine (accept_blames _).bind (accept_moves _) fun comma _ => ?_
    split
    · exact ih.bind (exposedItems_moves fuel) fun _ _ => .pure _
    · exact (expect_blames _ _).bind (expect_moves _ _) fun _ _ => .pure _

theorem exposing_blames : Blames (t :: rest) (Cursor.IsIn (t :: rest)) exposing := by
  unfold exposing
  refine (expect_blames _ _).bind (expect_moves _ _) fun first _ => ?_
  refine atDots_blames.bind atDots_moves fun dots _ => ?_
  split
  · exact dotsAndClose_blames.bind dotsAndClose_moves fun _ _ => .pure _
  · refine Blames.get.bind Moves.get fun c _ => ?_
    exact (exposedItems_blames _).bind (exposedItems_moves _) fun _ _ => .pure _

/-! ## Headers and imports -/

theorem settings_blames {opener : Span} (h : opener.IsOf (t :: rest)) :
    Blames (t :: rest) (Cursor.IsIn (t :: rest)) (settings opener) := by
  unfold settings
  refine Blames.get.bind Moves.get fun c _ => ?_
  split
  · intro c e _ he
    cases he
  · exact .failAt _ h

theorem moduleKind_blames : Blames (t :: rest) (Cursor.IsIn (t :: rest)) moduleKind := by
  unfold moduleKind
  refine (accept_blames _).bind (accept_moves _) fun port _ => ?_
  split
  · exact .pure _
  · refine (accept_blames _).bind (accept_moves _) fun effect _ => ?_
    split <;> exact .pure _

theorem header_blames : Blames (t :: rest) (Cursor.IsIn (t :: rest)) header := by
  unfold header
  refine here_blames.bind here_moves fun first _ => ?_
  refine moduleKind_blames.bind moduleKind_moves fun kind _ => ?_
  refine (expectKeyword_blames _ _).bind (expectKeyword_moves _ _) fun _ _ => ?_
  refine (moduleName_blames _).bind (moduleName_moves _) fun name _ => ?_
  have hexposing : Blames (t :: rest) (Cursor.IsIn (t :: rest))
      (do
        expectKeyword .exposingWord (.exposingAfter name.node.dotted)
        let exposed ← exposing
        expectEnd .header
        return ⟨kind, name, exposed, false, ← since first⟩ : Reader ModuleHeader) := by
    refine (expectKeyword_blames _ _).bind (expectKeyword_moves _ _) fun _ _ => ?_
    refine exposing_blames.bind exposing_moves fun exposed _ => ?_
    refine (expectEnd_blames _).bind (expectEnd_moves _) fun _ _ => ?_
    exact (since_blames _).bind (since_moves _) fun _ _ => .pure _
  -- Settings that are never closed are blamed on the brace that opens them.
  split
  · refine (expectKeyword_blames _ _).bind (expectKeyword_moves _ _) fun _ _ => ?_
    refine (expect_blames _ _).bind (expect_moves_isOf _ _) fun opener hopener => ?_
    exact (settings_blames hopener).bind (settings_moves opener) fun _ _ => hexposing
  · exact hexposing

theorem importAlias_blames : Blames (t :: rest) (Cursor.IsIn (t :: rest)) importAlias := by
  unfold importAlias
  refine (accept_blames _).bind (accept_moves _) fun as _ => ?_
  split
  · refine (upperName_blames _).bind (upperName_moves _) fun name hname => ?_
    split
    · exact .failAt _ hname.span
    · exact .pure _
  · exact .pure _

theorem importExposing_blames :
    Blames (t :: rest) (Cursor.IsIn (t :: rest)) importExposing := by
  unfold importExposing
  refine (accept_blames _).bind (accept_moves _) fun word _ => ?_
  split
  · exact exposing_blames.bind exposing_moves fun _ _ => .pure _
  · exact .pure _

theorem import_blames : Blames (t :: rest) (Cursor.IsIn (t :: rest)) import_ := by
  unfold import_
  refine here_blames.bind here_moves fun first _ => ?_
  refine (expectKeyword_blames _ _).bind (expectKeyword_moves _ _) fun _ _ => ?_
  refine (moduleName_blames _).bind (moduleName_moves _) fun name _ => ?_
  refine importAlias_blames.bind importAlias_moves fun asName _ => ?_
  refine importExposing_blames.bind importExposing_moves fun exposed _ => ?_
  refine (expectEnd_blames _).bind (expectEnd_moves _) fun _ _ => ?_
  exact (since_blames _).bind (since_moves _) fun _ _ => .pure _

/-! ## Types -/

/-- The brackets still open are among the tokens, too. -/
theorem span_of_checkBalanced {tokens ts : List Token} {unclosed : List (Bracket × Span)}
    {e : SyntaxError} (hunclosed : ∀ opener ∈ unclosed, opener.2.IsOf tokens) (hts : ts ⊆ tokens)
    (h : checkBalanced unclosed ts = .error e) : e.span.IsOf tokens := by
  induction ts generalizing unclosed with
  | nil =>
    cases unclosed with
    | nil => cases h
    | cons opener outer =>
      cases h
      exact hunclosed opener List.mem_cons_self
  | cons t ts ih =>
    have ht : t.span.IsOf tokens := .of_mem (hts List.mem_cons_self)
    have hrest : ts ⊆ tokens := fun t' ht' => hts (List.mem_cons_of_mem t ht')
    obtain ⟨kind, span⟩ := t
    cases kind with
    | opening bracket =>
      have hopened : ∀ opener ∈ (bracket, span) :: unclosed, opener.2.IsOf tokens :=
        List.forall_mem_cons.2 ⟨ht, hunclosed⟩
      exact ih hopened hrest h
    | closing bracket =>
      cases unclosed with
      | nil =>
        cases h
        exact ht
      | cons opener outer =>
        change (if opener.1 = bracket then checkBalanced outer ts
          else .error ⟨.unmatched bracket.closeText, span⟩) = _ at h
        split at h
        · exact ih (List.forall_mem_cons.1 hunclosed).2 hrest h
        · cases h
          exact ht
    | _ => exact ih hunclosed hrest h

theorem span_of_balanced {tokens ts : List Token} {e : SyntaxError} (hts : ts ⊆ tokens)
    (h : balanced ts = .error e) : e.span.IsOf tokens :=
  span_of_checkBalanced (by simp) hts h

theorem span_of_checkType {tokens ts : List Token} {owner : String} {before : Span}
    {e : SyntaxError} (hbefore : before.IsOf tokens) (hts : ts ⊆ tokens)
    (h : checkType owner before ts = .error e) : e.span.IsOf tokens := by
  -- Where there are no tokens the one before them is blamed, and else one of them.
  unfold checkType at h
  by_cases hempty : ts.isEmpty = true
  · rw [if_pos hempty] at h
    cases h
    exact hbefore
  · rw [if_neg hempty] at h
    cases hbalanced : balanced ts with
    | error e' =>
      simp only [hbalanced] at h
      cases h
      exact span_of_balanced hts hbalanced
    | ok u =>
      simp only [hbalanced] at h
      cases hequals : ts.find? (·.kind == .equals) with
      | some bad =>
        simp only [hequals] at h
        cases h
        exact .of_mem (hts (List.mem_of_find?_eq_some hequals))
      | none =>
        simp only [hequals] at h
        cases hlast : ts.getLast? with
        | none =>
          simp only [hlast] at h
          cases h
        | some last =>
          simp only [hlast] at h
          by_cases harrow : last.kind = .arrow
          · simp only [if_pos harrow] at h
            cases h
            exact .of_mem (hts (List.mem_of_getLast? hlast))
          · simp only [if_neg harrow] at h
            cases h

/-- A type that is missing is blamed on what stands before it. -/
theorem typeAnnotation_blames (owner : String) :
    Blames (t :: rest) (Cursor.IsPast (t :: rest)) ( typeAnnotation owner) := by
  unfold typeAnnotation
  refine behind_blames.bind behind_moves_isOf fun before hbefore => ?_
  refine remaining_blames.bind remaining_moves fun ts hts => ?_
  refine (Blames.lift fun e he => span_of_checkType hbefore hts.subset he).bind
    (Moves.lift fun _ _ => trivial) fun _ _ => .pure _

theorem typeAnnotation_moves_past (owner : String) :
    Moves (Cursor.IsPast (t :: rest)) (Cursor.IsAtEnd (t :: rest)) ( typeAnnotation owner)
      fun _ => True := by
  intro c a c' hc ha
  exact typeAnnotation_moves owner c a c' hc.1 ha

theorem signature_blames : Blames (t :: rest) (Cursor.IsIn (t :: rest)) signature := by
  unfold signature
  refine here_blames.bind here_moves fun first _ => ?_
  refine declarationName_blames.bind declarationName_moves fun name _ => ?_
  refine (expect_blames _ _).bind (expect_moves_past _ _) fun _ _ => ?_
  refine (typeAnnotation_blames _).bind (typeAnnotation_moves_past _) fun _ _ => ?_
  exact (since_blames _).bind (since_moves _) fun _ _ => .pure _

theorem aliasDeclaration_blames (doc : Option (Located String)) :
    Blames (t :: rest) (Cursor.IsIn (t :: rest)) (aliasDeclaration doc) := by
  unfold aliasDeclaration
  refine here_blames.bind here_moves fun first _ => ?_
  refine (expectKeyword_blames _ _).bind (expectKeyword_moves _ _) fun _ _ => ?_
  refine (expectKeyword_blames _ _).bind (expectKeyword_moves _ _) fun _ _ => ?_
  refine typeName_blames.bind typeName_moves fun name _ => ?_
  refine typeParameters_blames.bind typeParameters_moves fun parameters _ => ?_
  refine (expect_blames _ _).bind (expect_moves_past _ _) fun _ _ => ?_
  refine (typeAnnotation_blames _).bind (typeAnnotation_moves_past _) fun _ _ => ?_
  exact (since_blames _).bind (since_moves _) fun _ _ => .pure _

theorem span_of_constructor {tokens part : List Token} {before : Span} {e : SyntaxError}
    (hbefore : before.IsOf tokens) (hpart : part ⊆ tokens)
    (h : constructor before part = .error e) : e.span.IsOf tokens := by
  cases part with
  | nil =>
    cases h
    exact hbefore
  | cons t part =>
    have ht : t.span.IsOf tokens := .of_mem (hpart List.mem_cons_self)
    unfold constructor at h
    dsimp only at h
    split at h
    · split at h
      · cases h
        exact ht
      · cases h
    · cases h
      exact ht

theorem typeDeclaration_blames (doc : Option (Located String)) :
    Blames (t :: rest) (Cursor.IsIn (t :: rest)) (typeDeclaration doc) := by
  unfold typeDeclaration
  refine here_blames.bind here_moves fun first _ => ?_
  refine (expectKeyword_blames _ _).bind (expectKeyword_moves _ _) fun _ _ => ?_
  refine typeName_blames.bind typeName_moves fun name _ => ?_
  refine typeParameters_blames.bind typeParameters_moves fun parameters _ => ?_
  refine (expect_blames _ _).bind (expect_moves_isOf _ _) fun equals hequals => ?_
  refine remaining_blames.bind remaining_moves fun ts hts => ?_
  refine (Blames.lift fun e he => span_of_balanced hts.subset he).bind
    (Moves.lift fun _ _ => trivial) fun _ _ => ?_
  -- Each variant is blamed for itself, and the first one, if missing, on the `=`.
  have hconstructors : Blames (t :: rest) (Cursor.IsAtEnd (t :: rest))
      ((partsAtTop .pipe 0 ts).mapM fun part =>
        (constructor equals part : Reader Constructor)) := by
    apply Blames.mapM
    · intro part hpart
      apply Blames.lift
      intro e he
      have hrow := (infix_of_mem_partsAtTop hpart).trans hts.isInfix
      exact span_of_constructor hequals hrow.subset he
    · intro part _
      exact Moves.lift fun _ _ => trivial
  refine hconstructors.bind (Moves.mapM fun _ _ => Moves.lift fun _ _ => trivial) fun cs _ => ?_
  exact (since_blames _).bind (since_moves _) fun _ _ => .pure _

/-! ## Ports and operators -/

theorem portDeclaration_blames :
    Blames (t :: rest) (Cursor.IsIn (t :: rest)) portDeclaration := by
  unfold portDeclaration
  refine here_blames.bind here_moves fun first _ => ?_
  refine (expectKeyword_blames _ _).bind (expectKeyword_moves _ _) fun _ _ => ?_
  refine declarationName_blames.bind declarationName_moves fun name _ => ?_
  refine (expect_blames _ _).bind (expect_moves_past _ _) fun _ _ => ?_
  refine (typeAnnotation_blames _).bind (typeAnnotation_moves_past _) fun _ _ => ?_
  exact (since_blames _).bind (since_moves _) fun _ _ => .pure _

theorem reading_blames {α : Type} (what blame : Expected) (meaning : TokenKind → Option α) :
    Blames (t :: rest) (Cursor.IsIn (t :: rest)) (reading what meaning blame) := by
  unfold reading
  refine (next_blames _).bind (next_moves _) fun found hfound => ?_
  split
  · exact .pure _
  · exact .failAt _ (.of_mem hfound)

theorem operatorDeclaration_blames :
    Blames (t :: rest) (Cursor.IsIn (t :: rest)) operatorDeclaration := by
  unfold operatorDeclaration
  refine here_blames.bind here_moves fun first _ => ?_
  refine (expectKeyword_blames _ _).bind (expectKeyword_moves _ _) fun _ _ => ?_
  refine (reading_blames _ _ _).bind (reading_moves _ _ _) fun associativity _ => ?_
  refine (reading_blames _ _ _).bind (reading_moves _ _ _) fun precedence _ => ?_
  refine (expect_blames _ _).bind (expect_moves _ _) fun _ _ => ?_
  refine (reading_blames _ _ _).bind (reading_moves _ _ _) fun operator _ => ?_
  refine (expect_blames _ _).bind (expect_moves _ _) fun _ _ => ?_
  refine (expect_blames _ _).bind (expect_moves _ _) fun _ _ => ?_
  refine declarationName_blames.bind declarationName_moves fun function _ => ?_
  refine (expectEnd_blames _).bind (expectEnd_moves _) fun _ _ => ?_
  exact (since_blames _).bind (since_moves _) fun _ _ => .pure _

/-! ## Definitions -/

theorem firstKeyword_isOf {tokens ts : List Token} {before : Span} (word : Keyword)
    (hbefore : before.IsOf tokens) (hts : ts ⊆ tokens) :
    (firstKeyword word before ts).IsOf tokens := by
  unfold firstKeyword
  cases hfound : ts.find? (·.kind == .keyword word) with
  | none => exact hbefore
  | some found => exact .of_mem (hts (List.mem_of_find?_eq_some hfound))

theorem span_of_checkBody {tokens ts : List Token} {owner : String} {before : Span}
    {e : SyntaxError} (hbefore : before.IsOf tokens) (hts : ts ⊆ tokens)
    (h : checkBody owner before ts = .error e) : e.span.IsOf tokens := by
  have hwords (word : Keyword) : (firstKeyword word before ts).IsOf tokens :=
    firstKeyword_isOf word hbefore hts
  unfold checkBody at h
  cases hlast : ts.getLast? with
  | none =>
    simp only [hlast] at h
    cases h
    exact hbefore
  | some last =>
    simp only [hlast] at h
    split at h
    · cases h
      exact .of_mem (hts (List.mem_of_getLast? hlast))
    · split at h
      · cases h
        exact hwords .ifWord
      · split at h
        · cases h
          exact hwords .letWord
        · split at h
          · cases h
            exact hwords .caseWord
          · cases h

theorem span_of_argumentsAndBody {tokens ts : List Token} {owner : Name} {e : SyntaxError}
    (howner : owner.span.IsOf tokens) (hts : ts ⊆ tokens)
    (h : argumentsAndBody owner ts = .error e) : e.span.IsOf tokens := by
  unfold argumentsAndBody at h
  cases hbalanced : balanced ts with
  | error e' =>
    rw [hbalanced] at h
    cases h
    exact span_of_balanced hts hbalanced
  | ok u =>
    rw [hbalanced] at h
    cases hsplit : splitAtTop? .equals 0 ts with
    | none =>
      rw [hsplit] at h
      cases h
      exact howner
    | some parts =>
      obtain ⟨before, equals, body⟩ := parts
      rw [hsplit] at h
      dsimp only at h
      -- A body that is missing is blamed on the `=`.
      have hback : before ++ equals :: body ⊆ tokens := splitAtTop?_eq hsplit ▸ hts
      have hequals : equals ∈ tokens := hback (by simp)
      have hbody : body ⊆ tokens := fun t ht => hback (by simp [ht])
      cases hcheck : checkBody owner.node equals.span body with
      | error e' =>
        rw [hcheck] at h
        cases h
        exact span_of_checkBody (.of_mem hequals) hbody hcheck
      | ok u =>
        rw [hcheck] at h
        cases h

theorem valueDeclaration_blames (doc : Option (Located String)) (sig : Option Signature) :
    Blames (t :: rest) (Cursor.IsIn (t :: rest)) (valueDeclaration doc sig) := by
  unfold valueDeclaration
  refine here_blames.bind here_moves fun first _ => ?_
  refine declarationName_blames.bind declarationName_moves fun name hname => ?_
  refine remaining_blames.bind remaining_moves fun ts hts => ?_
  refine (Blames.lift fun e he => span_of_argumentsAndBody hname.span hts.subset he).bind
    (Moves.lift fun _ _ => trivial) fun parts _ => ?_
  exact (since_blames _).bind (since_moves _) fun _ _ => .pure _

/-- **What is blamed for a declaration** stands in its item. -/
theorem declaration_blames (kind : ModuleKind) (doc : Option (Located String))
    (sig : Option Signature) :
    Blames (t :: rest) (· = .start (t :: rest)) (declaration kind doc sig) := by
  have ht : t.span.IsOf (t :: rest) := .of_mem List.mem_cons_self
  unfold declaration
  refine Blames.get.bind Moves.get fun c hc => ?_
  have hhead : c.ahead.head? = some t := by
    rw [hc]
    rfl
  rw [hhead]
  dsimp only
  split
  · refine peekSecond?_blames.bind peekSecond?_moves fun second _ => ?_
    split
    · exact (aliasDeclaration_blames doc).start.bind (aliasDeclaration_moves doc) fun _ _ => .pure _
    · exact (typeDeclaration_blames doc).start.bind (typeDeclaration_moves doc) fun _ _ => .pure _
  · split
    · exact portDeclaration_blames.start.bind portDeclaration_moves fun _ _ => .pure _
    · exact .failAt _ ht
  · exact operatorDeclaration_blames.start.bind operatorDeclaration_moves fun _ _ => .pure _
  · exact (valueDeclaration_blames doc sig).start.bind (valueDeclaration_moves doc sig)
      fun _ _ => .pure _
  · exact .failAt _ ht
  · exact .failAt _ ht

end

end Reader

end ElmIntake
