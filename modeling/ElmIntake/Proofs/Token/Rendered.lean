import ElmIntake.Proofs.Token.Reread
import ElmIntake.Syntax.Group
import Mathlib.Data.List.Chain

/-! # Rendered tokens are read back

    Rendering puts a blank between two tokens, but none inside a bracket and none before a
    comma. That is enough for every token but one: a brace that opens has nothing between
    it and a dash, so the two are read as the beginning of a comment
    (`TokenKind.OpensComment`).

    Tokens in a row are read back up to the first place where something goes wrong
    (`exists_cuts_rendered`). The induction is on the tokens before that place, and what
    stands behind each of them is known to end it (`mayPrecede_spaced`). -/

namespace ElmIntake

/-- Do the two tokens begin a comment when nothing stands between them? -/
def TokenKind.OpensComment (kind next : TokenKind) : Prop :=
  kind = .opening .brace ∧ next.text.toList.head? = some '-'

instance : DecidableRel TokenKind.OpensComment := fun _ _ => instDecidableAnd

/-! ## The text of tokens in a row -/

/-- The text behind a token of the kind `previous`. -/
def spaced (previous : TokenKind) (tokens : List Token) : List Char :=
  (spacedAfter previous tokens).flatMap String.toList

/-- What stands between two tokens. -/
def gap (previous kind : TokenKind) : List Char := if isTight previous kind then [] else [' ']

section

variable {t u : Token} {tokens before after : List Token} {kind next : TokenKind}
  {more rest : List Char} {pieces : List Piece}

theorem spaced_cons (previous : TokenKind) (t : Token) (tokens : List Token) :
    spaced previous (t :: tokens) =
      gap previous t.kind ++ (t.kind.text.toList ++ spaced t.kind tokens) := by
  unfold spaced gap
  rw [spacedAfter, List.flatMap_cons]
  split <;> simp [Token.text]

theorem toList_render (t : Token) (tokens : List Token) :
    (render (t :: tokens)).toList = t.kind.text.toList ++ spaced t.kind tokens := by
  show (String.join (t.text :: spacedAfter t.kind tokens)).toList = _
  rw [String.join_cons, String.toList_append, String.toList_join]
  rfl

/-! ## What stands behind a token -/

theorem mayPrecede_of_ends (h : Ends rest) (hopen : kind.isOpening = false) :
    kind.MayPrecede rest := by
  cases kind with
  | opening bracket => cases hopen
  | _ => exact h

theorem mayPrecede_nil (kind : TokenKind) : kind.MayPrecede [] := by
  cases kind with
  | opening bracket => cases bracket <;> simp [TokenKind.MayPrecede]
  | _ => exact nofun

/-- Behind a token that opens no group stands a blank, a comma, or a bracket that closes. -/
theorem ends_spaced (hopen : kind.isOpening = false) (tokens : List Token) :
    Ends (spaced kind tokens) := by
  cases tokens with
  | nil => exact nofun
  | cons t tokens =>
    rw [spaced_cons]
    unfold gap isTight
    rw [hopen, Bool.false_or]
    by_cases htight : (t.kind == .comma || t.kind.isClosing) = true
    · rw [if_pos htight, List.nil_append]
      rcases Bool.or_eq_true_iff.1 htight with hcomma | hclosing
      · rw [beq_iff_eq.1 hcomma]
        rintro d ⟨⟩
        decide
      · cases hkind : t.kind with
        | closing bracket =>
          cases bracket
          all_goals rintro d ⟨⟩
          all_goals decide
        | _ =>
          rw [hkind] at hclosing
          cases hclosing
    · rw [if_neg htight]
      rintro d ⟨⟩
      decide

theorem text_ne_nil (h : kind.IsToken) : kind.text.toList ≠ [] := by
  obtain ⟨hread, hrefused⟩ := h.reread (mayPrecede_nil kind)
  cases hgarbled : kind.isGarbled with
  | false =>
    obtain ⟨c, cs, htext, -⟩ := hread hgarbled
    rw [List.append_nil] at htext
    rw [htext]
    exact List.cons_ne_nil _ _
  | true =>
    obtain ⟨c, cs, -, htext, -⟩ := hrefused hgarbled
    rw [List.append_nil] at htext
    rw [htext]
    exact List.cons_ne_nil _ _

/-- A token whose text begins with a letter is a name, and its text is all of the name. -/
theorem readName_of_letter {c : Char} {cs : List Char} (h : kind.IsToken)
    (hc : (Text.isAlphabetic c || c == '_') = true) (htext : kind.text.toList = c :: cs) :
    readName (c :: cs) = ⟨kind, c :: cs, []⟩ := by
  obtain ⟨hread, hrefused⟩ := h.reread (mayPrecede_nil kind)
  cases hgarbled : kind.isGarbled with
  | false =>
    obtain ⟨c', cs', hsource, hpiece⟩ := hread hgarbled
    rw [List.append_nil, htext] at hsource
    cases hsource
    rw [readPiece_letter hc, htext, Except.ok.injEq, Cut.mk.injEq, Option.some.injEq] at hpiece
    obtain ⟨hvalue, hname, hrest⟩ := hpiece
    rw [← hvalue]
    exact congrArg₂ (Cut.mk _) hname hrest
  | true =>
    obtain ⟨c', cs', fault, hsource, hpiece⟩ := hrefused hgarbled
    rw [List.append_nil, htext] at hsource
    cases hsource
    rw [readPiece_letter hc] at hpiece
    cases hpiece

/-- A name without dots ends with the first character that is not part of one. -/
theorem rest_of_readName {word : List Char} (hword : ∀ c ∈ word, isNameChar c = true)
    (hname : Stops isNameChar rest) (hdot : Stops (· == '.') rest) :
    (readName (word ++ rest)).rest = rest := by
  unfold readName
  dsimp only
  rw [takeWhile_append_stops hword hname, dropWhile_append_stops hword hname]
  split
  · rfl
  · rw [readDotted_of_stops hdot]
    rfl

/-- The mark of a shader block does not come about by itself: a bar is no part of a name,
    and behind a name stands none without a blank. -/
theorem not_shader_spaced (h : kind.IsToken) (tokens : List Token) :
    ¬ ['g', 'l', 's', 'l', '|'] <+: kind.text.toList ++ spaced kind tokens := by
  intro hmark
  have hne := text_ne_nil h
  have hname : ∀ cs, kind.text.toList = 'g' :: cs → kind.isOpening = false ∧
      (readName ('g' :: cs)).rest = [] := by
    intro cs htext
    have hread := readName_of_letter h (by decide) htext
    have hopen := (readName_cases ('g' :: cs)).2.1
    rw [hread] at hopen
    exact ⟨hopen, by rw [hread]⟩
  -- Only a name starts with this letter, and the bar is no part of it.
  have hwhole : ¬ ['g', 'l', 's', 'l', '|'] <+: kind.text.toList := by
    rintro ⟨cs, hcs⟩
    have hrest := (hname _ hcs.symm).2
    have hbar : (readName (['g', 'l', 's', 'l'] ++ '|' :: cs)).rest = '|' :: cs :=
      rest_of_readName (List.all_eq_true.1 (by decide)) (stops_cons (by decide))
        (stops_cons (by decide))
    exact absurd (hbar.symm.trans hrest) (List.cons_ne_nil _ _)
  rcases List.prefix_or_prefix_of_prefix hmark (List.prefix_append _ _) with hlong | ⟨more, hmore⟩
  · exact hwhole hlong
  · -- Otherwise the rest of the mark stands behind the text, where no letter of it and no bar can.
    cases more with
    | nil => exact hwhole ⟨[], by rw [← hmore]; simp⟩
    | cons d more =>
      cases htext : kind.text.toList with
      | nil => exact hne htext
      | cons c cs =>
        rw [htext] at hmore hmark
        rw [← hmore, List.prefix_append_right_inj] at hmark
        obtain rfl : c = 'g' := (List.cons.inj hmore).1
        obtain ⟨rest, hrest⟩ := hmark
        have hd : d ∈ ends := ends_spaced (hname cs htext).1 tokens d (by rw [← hrest]; rfl)
        have hd' : d ∈ ['g', 'l', 's', 'l', '|'] := by
          rw [← hmore]
          simp
        have hall : ['g', 'l', 's', 'l', '|'].all (fun d => !ends.contains d) = true := by decide
        have hnot := List.all_eq_true.1 hall d hd'
        rw [List.contains_iff_mem.2 hd] at hnot
        cases hnot

theorem mayPrecede_spaced (htokens : ∀ t ∈ tokens, t.kind.IsToken)
    (hcomment : ∀ t ∈ tokens.head?, ¬ kind.OpensComment t.kind) :
    kind.MayPrecede (spaced kind tokens) := by
  -- Behind all but opening brackets there is a blank or a token that ends them.
  cases hopen : kind.isOpening with
  | false => exact mayPrecede_of_ends (ends_spaced hopen tokens) hopen
  | true =>
    cases tokens with
    | nil => exact mayPrecede_nil kind
    | cons u tokens =>
      have hu : u.kind.IsToken := htokens u List.mem_cons_self
      have htight : spaced kind (u :: tokens) = u.kind.text.toList ++ spaced u.kind tokens := by
        rw [spaced_cons]
        unfold gap isTight
        rw [hopen]
        rfl
      rw [htight]
      cases kind with
      | opening bracket =>
        cases bracket with
        | paren => trivial
        | square => exact not_shader_spaced hu tokens
        | brace =>
          intro hdash
          refine hcomment u rfl ⟨rfl, ?_⟩
          cases htext : u.kind.text.toList with
          | nil => exact absurd htext (text_ne_nil hu)
          | cons c cs =>
            rw [htext] at hdash
            exact hdash
      | _ => cases hopen

/-! ## Reading tokens in a row -/

/-- A blank may be left out, or not, between two tokens. -/
theorem gap_blanks (previous kind : TokenKind) : ∀ c ∈ gap previous kind, c ∈ blanks := by
  unfold gap
  split
  · exact nofun
  · intro c hc
    rw [List.mem_singleton.1 hc]
    exact List.mem_cons_self

theorem cuts_of_gap (h : Cuts (gap kind next ++ more) pieces) :
    ∃ blank others, pieces = blank ++ others ∧ blank.filterMap (·.kind) = [] ∧
      Cuts more others := by
  unfold gap at h
  split at h
  · exact ⟨[], pieces, rfl, rfl, h⟩
  · cases h with
    | @piece _ _ cut pieces hpiece hrest =>
      rw [readPiece_blank (by decide)] at hpiece
      cases hpiece
      exact ⟨[⟨none, [' ']⟩], pieces, rfl, rfl, hrest⟩

/-- Does no comment begin with one of the tokens and the next? -/
def IsUncommented (tokens : List Token) : Prop :=
  tokens.IsChain fun t u => ¬ t.kind.OpensComment u.kind

instance (tokens : List Token) : Decidable (IsUncommented tokens) :=
  inferInstanceAs (Decidable (List.IsChain _ _))

theorem isUncommented_cons :
    IsUncommented (t :: tokens) ↔
      (∀ u ∈ tokens.head?, ¬ t.kind.OpensComment u.kind) ∧ IsUncommented tokens :=
  List.isChain_cons

/-- **Rendered tokens are read back** if nothing is garbled and no comment begins. -/
theorem exists_cuts_render (htokens : ∀ t ∈ tokens, t.kind.IsToken)
    (hgood : ∀ t ∈ tokens, t.kind.isGarbled = false) (hcomment : IsUncommented tokens) :
    ∃ pieces, Cuts (render tokens).toList pieces ∧
      pieces.filterMap (·.kind) = tokens.map (·.kind) := by
  induction tokens with
  | nil => exact ⟨[], .done, rfl⟩
  | cons t tokens ih =>
    obtain ⟨ht, htokens⟩ := List.forall_mem_cons.1 htokens
    obtain ⟨htGood, hgood⟩ := List.forall_mem_cons.1 hgood
    obtain ⟨hnext, hcomment⟩ := isUncommented_cons.1 hcomment
    obtain ⟨pieces, hcuts, hkinds⟩ := ih htokens hgood hcomment
    obtain ⟨others, hothers, hsame⟩ : ∃ others, Cuts (spaced t.kind tokens) others ∧
        others.filterMap (·.kind) = tokens.map (·.kind) := by
      cases tokens with
      | nil => exact ⟨[], .done, rfl⟩
      | cons u tokens =>
        rw [toList_render] at hcuts
        rw [spaced_cons]
        refine ⟨_, hcuts.after_gap (gap_blanks t.kind u.kind), ?_⟩
        rw [List.filterMap_append, hkinds]
        simp
    obtain ⟨c, cs, htext, hread⟩ :=
      (ht.reread (mayPrecede_spaced htokens hnext)).1 htGood
    rw [toList_render, htext]
    refine ⟨_, .piece hread hothers, ?_⟩
    rw [List.filterMap_cons, hsame]
    rfl

/-- Whatever stands behind them, the first tokens of a row are read back. -/
theorem cuts_render_append (htokens : ∀ t ∈ before ++ u :: after, t.kind.IsToken)
    (hgood : ∀ t ∈ before, t.kind.isGarbled = false) (hcomment : IsUncommented (before ++ [u]))
    (h : Cuts (render (before ++ u :: after)).toList pieces) :
    ∃ front back, pieces = front ++ back ∧ front.filterMap (·.kind) = before.map (·.kind) ∧
      Cuts (render (u :: after)).toList back := by
  induction before generalizing pieces with
  | nil => exact ⟨[], pieces, rfl, rfl, h⟩
  | cons t before ih =>
    rw [List.cons_append] at htokens hcomment h
    obtain ⟨ht, htokens⟩ := List.forall_mem_cons.1 htokens
    obtain ⟨htGood, hgood⟩ := List.forall_mem_cons.1 hgood
    obtain ⟨hnext, hcomment⟩ := isUncommented_cons.1 hcomment
    have hnext' : ∀ v ∈ (before ++ u :: after).head?, ¬ t.kind.OpensComment v.kind := by
      cases before with
      | nil => exact hnext
      | cons v before => exact hnext
    obtain ⟨c, cs, htext, hread⟩ := (ht.reread (mayPrecede_spaced htokens hnext')).1 htGood
    rw [toList_render, htext] at h
    cases h with
    | @piece _ _ cut others hpiece hrest =>
      rw [hread] at hpiece
      cases hpiece
      -- There may be a blank between two tokens, which is a piece of its own.
      obtain ⟨blank, others, rfl, hblank, hrow⟩ : ∃ blank others', others = blank ++ others' ∧
          blank.filterMap (·.kind) = [] ∧ Cuts (render (before ++ u :: after)).toList others' := by
        cases hrow : before ++ u :: after with
        | nil => exact absurd hrow (by simp)
        | cons v row =>
          rw [hrow, spaced_cons] at hrest
          rw [toList_render]
          exact cuts_of_gap hrest
      obtain ⟨front, back, rfl, hfront, hback⟩ := ih htokens hgood hcomment hrow
      refine ⟨⟨some t.kind, t.kind.text.toList⟩ :: (blank ++ front), back, by simp, ?_, hback⟩
      rw [List.filterMap_cons, List.filterMap_append, hblank, hfront]
      rfl

end

/-- The two characters that begin a comment belong to it. -/
theorem prefix_of_readPiece_block {cs : List Char} {cut : Cut (Option TokenKind)}
    (h : readPiece '\x7b' ('-' :: cs) = .ok cut) : ['\x7b', '-'] <+: cut.text := by
  unfold readPiece at h
  rw [if_neg (by decide), if_neg (by decide)] at h
  split at h
  · next hdash _ => exact absurd hdash (by decide)
  · unfold readDocComment at h
    split at h <;> cases h
    exact ⟨_, rfl⟩
  · unfold readPlainComment at h
    split at h <;> cases h
    exact ⟨_, rfl⟩
  · next hblock => exact (hblock _ rfl rfl).elim

/-! ## Reading a rendered text -/

/-- **What is read of a rendered text.** -/
structure Rereads (tokens : List Token) : Prop where
  /-- Tokens of the same kinds, and then the end, if no literal is garbled and no brace stands
      directly before a dash. -/
  same : (∀ t ∈ tokens, t.kind.isGarbled = false) → IsUncommented tokens →
    ∃ read, Token.ofSource (render tokens) = .ok read ∧
      read.map (·.kind) = tokens.map (·.kind) ++ [.eof]
  /-- A garbled literal cannot be read, so nothing is. -/
  refused : ∀ before t after, tokens = before ++ t :: after → t.kind.isGarbled = true →
    (∀ u ∈ before, u.kind.isGarbled = false) → IsUncommented (before ++ [t]) →
    ∃ e, Token.ofSource (render tokens) = .error e
  /-- Where a brace stands directly before a dash, a comment is read instead of them. -/
  swallowed : ∀ before t u after, tokens = before ++ t :: u :: after →
    t.kind.OpensComment u.kind → (∀ v ∈ before, v.kind.isGarbled = false) →
    IsUncommented (before ++ [t]) →
    ∀ pieces, Cuts (render tokens).toList pieces →
      ∃ front comment back, pieces = front ++ comment :: back ∧
        front.filterMap (·.kind) = before.map (·.kind) ∧ ['\x7b', '-'] <+: comment.text

theorem rereads_of_isToken {tokens : List Token} (htokens : ∀ t ∈ tokens, t.kind.IsToken) :
    Rereads tokens where
  same := by
    intro hgood hcomment
    obtain ⟨pieces, hcuts, hkinds⟩ := exists_cuts_render htokens hgood hcomment
    refine ⟨placePieces .start pieces, ?_, ?_⟩
    · unfold Token.ofSource
      dsimp only
      rw [cutPieces_of_cuts hcuts []]
      rfl
    · rw [map_kind_placePieces, hkinds]
  refused := by
    rintro before t after rfl hgarbled hgood hcomment
    cases hread : Token.ofSource (render (before ++ t :: after)) with
    | error e => exact ⟨e, rfl⟩
    | ok read =>
      obtain ⟨pieces, hcuts, -⟩ := Token.exists_cuts hread
      -- The reader comes as far as the garbled token, and refuses that one.
      obtain ⟨front, back, -, -, hback⟩ := cuts_render_append htokens hgood hcomment hcuts
      have ht : t.kind.IsToken := htokens t (by simp)
      have hafter : ∀ u ∈ after, u.kind.IsToken := fun u hu => htokens u (by simp [hu])
      have hnext : ∀ u ∈ after.head?, ¬ t.kind.OpensComment u.kind := by
        rintro u - ⟨hbrace, -⟩
        rw [hbrace] at hgarbled
        cases hgarbled
      obtain ⟨c, cs, fault, htext, hrefused⟩ :=
        (ht.reread (mayPrecede_spaced hafter hnext)).2 hgarbled
      rw [toList_render, htext] at hback
      cases hback with
      | piece hpiece =>
        rw [hrefused] at hpiece
        cases hpiece
  swallowed := by
    rintro before t u after rfl hopens hgood hcomment pieces hcuts
    obtain ⟨front, back, rfl, hfront, hback⟩ := cuts_render_append htokens hgood hcomment hcuts
    obtain ⟨hbrace, hdash⟩ := hopens
    obtain ⟨cs, htext⟩ := List.head?_eq_some_iff.1 hdash
    have hsource : (render (t :: u :: after)).toList =
        '\x7b' :: '-' :: (cs ++ spaced u.kind after) := by
      rw [toList_render, spaced_cons, hbrace, htext]
      rfl
    rw [hsource] at hback
    -- What it comes to starts with the mark of a comment.
    cases hback with
    | piece hpiece => exact ⟨front, _, _, rfl, hfront, prefix_of_readPiece_block hpiece⟩

end ElmIntake
