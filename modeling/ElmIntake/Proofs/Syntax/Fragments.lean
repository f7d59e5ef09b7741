import ElmIntake.Proofs.Syntax.Spans
import ElmIntake.Proofs.Token.Rendered

/-! # Types and patterns as text

    A module keeps types and argument patterns as text, rendered from the tokens that they
    were written in. Each such fragment belongs to a row of tokens of the source
    (`IsRenderOf`), and what is known of rendered tokens tells what is read of it
    (`Rereads`): the tokens of that row, unless a literal among them is garbled or a comment
    begins.

    Both happen. A character that has to be written with a backslash is rendered without
    it, the escape for NUL is one that is not read, and a brace directly before a dash is
    enough for a comment. -/

namespace ElmIntake

/-! ## Fragments -/

/-- The rendered texts of a declaration, without the type of its signature. -/
def Declaration.ownFragments : Declaration → List String
  | value d => d.arguments.map (·.node)
  | synonym d => [ d.annotation]
  | type d => d.constructors.flatMap (·.arguments)
  | port d => [ d.annotation]
  | operator _ => []

/-- The rendered texts of a module: types of signatures, arguments of definitions, types of
    aliases and ports, and arguments of constructors. -/
def Module.fragments (m : Module) : List String :=
  m.declarations.flatMap fun d => d.signature?.toList.map ( Signature.annotation) ++ d.ownFragments

/-- Is a text rendered from some of the tokens in a row? -/
def IsRenderOf (tokens : List Token) (text : String) : Prop :=
  ∃ row, row <:+: tokens ∧ text = render row

theorem IsRenderOf.mono {tokens tokens' : List Token} {text : String}
    (h : IsRenderOf tokens text) (hrow : tokens <:+: tokens') : IsRenderOf tokens' text := by
  obtain ⟨row, hwithin, htext⟩ := h
  exact ⟨row, hwithin.trans hrow, htext⟩

namespace Reader

variable {tokens rest : List Token} {t : Token}

/-! ## What the readers render -/

theorem typeAnnotation_renders (owner : String) :
    Moves (Cursor.IsIn tokens) (Cursor.IsAtEnd tokens) ( typeAnnotation owner)
      (IsRenderOf tokens) := by
  unfold typeAnnotation
  refine behind_moves.bind fun before _ => ?_
  refine remaining_moves.bind fun ts hts => ?_
  exact (Moves.lift fun _ _ => trivial).bind fun _ _ => .pure ⟨ts, hts.isInfix, rfl⟩

theorem signature_renders :
    Moves (· = .start (t :: rest)) (Cursor.IsAtEnd (t :: rest)) signature
      fun s => IsRenderOf (t :: rest) s.annotation := by
  unfold signature
  refine here_moves_start.bind fun first _ => ?_
  refine declarationName_moves.bind fun name _ => ?_
  refine (expect_moves _ _).bind fun _ _ => ?_
  refine (typeAnnotation_renders _).bind fun annotation hannotation => ?_
  exact (since_moves _).bind fun whole _ => .pure hannotation

/-- Does a declaration hold rendered tokens only? -/
def Renders (tokens : List Token) (d : Declaration) : Prop :=
  ∀ text ∈ d.ownFragments, IsRenderOf tokens text

theorem aliasDeclaration_renders (doc : Option (Located String)) :
    Moves (· = .start (t :: rest)) (Cursor.IsAtEnd (t :: rest)) (aliasDeclaration doc)
      fun d => Renders (t :: rest) (.synonym d) := by
  unfold aliasDeclaration
  refine here_moves_start.bind fun first _ => ?_
  refine (expectKeyword_moves _ _).bind fun _ _ => ?_
  refine (expectKeyword_moves _ _).bind fun _ _ => ?_
  refine typeName_moves.bind fun name _ => ?_
  refine typeParameters_moves.bind fun parameters _ => ?_
  refine (expect_moves _ _).bind fun _ _ => ?_
  refine (typeAnnotation_renders _).bind fun annotation hannotation => ?_
  refine (since_moves _).bind fun whole _ => .pure ?_
  exact List.forall_mem_singleton.2 hannotation

theorem portDeclaration_renders :
    Moves (· = .start (t :: rest)) (Cursor.IsAtEnd (t :: rest)) portDeclaration
      fun d => Renders (t :: rest) (.port d) := by
  unfold portDeclaration
  refine here_moves_start.bind fun first _ => ?_
  refine (expectKeyword_moves _ _).bind fun _ _ => ?_
  refine declarationName_moves.bind fun name _ => ?_
  refine (expect_moves _ _).bind fun _ _ => ?_
  refine (typeAnnotation_renders _).bind fun annotation hannotation => ?_
  refine (since_moves _).bind fun whole _ => .pure ?_
  exact List.forall_mem_singleton.2 hannotation

theorem isRenderOf_atoms {ts : List Token} (hts : ts <:+: tokens) :
    ∀ a ∈ atoms ts, IsRenderOf tokens (render a.tokens) :=
  fun a ha => ⟨a.tokens, (infix_of_mem_atoms ha).trans hts, rfl⟩

theorem constructor_renders {before : Span} {part : List Token} {c : Constructor}
    (hpart : part <:+: tokens) (h : constructor before part = .ok c) :
    ∀ text ∈ c.arguments, IsRenderOf tokens text := by
  cases part with
  | nil => cases h
  | cons t part =>
    have hrest : part <:+: tokens := (List.suffix_cons t part).isInfix.trans hpart
    obtain ⟨kind, span⟩ := t
    cases kind with
    | upperName name =>
      unfold constructor at h
      dsimp only at h
      split at h
      · cases h
      · cases h
        intro text htext
        obtain ⟨a, ha, rfl⟩ := List.mem_map.1 htext
        exact isRenderOf_atoms hrest a ha
    | _ => cases h

theorem typeDeclaration_renders (doc : Option (Located String)) :
    Moves (· = .start (t :: rest)) (Cursor.IsAtEnd (t :: rest)) (typeDeclaration doc)
      fun d => Renders (t :: rest) (.type d) := by
  unfold typeDeclaration
  refine here_moves_start.bind fun first _ => ?_
  refine (expectKeyword_moves _ _).bind fun _ _ => ?_
  refine typeName_moves.bind fun name _ => ?_
  refine typeParameters_moves.bind fun parameters _ => ?_
  refine (expect_moves _ _).bind fun equals _ => ?_
  refine remaining_moves.bind fun ts hts => ?_
  refine (Moves.lift fun _ _ => trivial).bind fun _ _ => ?_
  have hconstructors : Moves (Cursor.IsAtEnd (t :: rest)) (Cursor.IsAtEnd (t :: rest))
      ((partsAtTop .pipe 0 ts).mapM fun part => (constructor equals part : Reader Constructor))
      (∀ c ∈ ·, ∀ text ∈ c.arguments, IsRenderOf (t :: rest) text) := by
    apply Moves.mapM
    intro part hpart
    apply Moves.lift
    intro c hc
    exact constructor_renders ((infix_of_mem_partsAtTop hpart).trans hts.isInfix) hc
  refine hconstructors.bind fun cs hcs => ?_
  refine (since_moves _).bind fun whole _ => .pure ?_
  intro text htext
  obtain ⟨c, hc, harguments⟩ := List.mem_flatMap.1 htext
  exact hcs c hc text harguments

theorem argumentsAndBody_renders {owner : Name} {ts : List Token} {args : List (Located String)}
    {body : Span} (h : argumentsAndBody owner ts = .ok (args, body)) :
    ∀ a ∈ args, IsRenderOf ts a.node := by
  obtain ⟨-, before, equals, rest, hsplit, -, rfl, -⟩ := argumentsAndBody_eq_ok_iff.1 h
  have hbefore : before <:+: ts := by
    rw [splitAtTop?_eq hsplit]
    exact (List.prefix_append _ _).isInfix
  intro a ha
  obtain ⟨atom, hatom, rfl⟩ := List.mem_map.1 ha
  exact isRenderOf_atoms hbefore atom hatom

theorem valueDeclaration_renders (doc : Option (Located String)) (sig : Option Signature) :
    Moves (· = .start (t :: rest)) (Cursor.IsAtEnd (t :: rest)) (valueDeclaration doc sig)
      fun d => Renders (t :: rest) (.value d) := by
  unfold valueDeclaration
  refine here_moves_start.bind fun first _ => ?_
  refine declarationName_moves.bind fun name _ => ?_
  refine remaining_moves.bind fun ts hts => ?_
  refine Moves.bind (.lift fun parts hparts => argumentsAndBody_renders hparts) ?_
  intro parts hparts
  refine (since_moves _).bind fun whole _ => .pure ?_
  intro text htext
  obtain ⟨a, ha, rfl⟩ := List.mem_map.1 htext
  exact (hparts a ha).mono hts.isInfix

/-- **Whatever is kept as text** in a declaration is rendered from tokens of its item. -/
theorem declaration_renders (kind : ModuleKind) (doc : Option (Located String))
    (sig : Option Signature) :
    Moves (· = .start (t :: rest)) (Cursor.IsAtEnd (t :: rest)) (declaration kind doc sig)
      (Renders (t :: rest)) := by
  unfold declaration
  refine Moves.get.bind fun c _ => ?_
  split
  · exact .failAt _ _
  · split
    · refine peekSecond?_moves.bind fun second _ => ?_
      split
      · exact (aliasDeclaration_renders doc).bind fun d hd => .pure hd
      · exact (typeDeclaration_renders doc).bind fun d hd => .pure hd
    · split
      · exact portDeclaration_renders.bind fun d hd => .pure hd
      · exact .failAt _ _
    · refine operatorDeclaration_moves.bind fun d _ => .pure ?_
      exact nofun
    · exact (valueDeclaration_renders doc sig).bind fun d hd => .pure hd
    · exact .failAt _ _
    · exact .failAt _ _

end Reader

/-! ## From the source to the fragments -/

theorem Cuts.isToken {cs : List Char} {pieces : List Piece} (h : Cuts cs pieces) :
    ∀ kind ∈ pieces.filterMap (·.kind), kind.IsToken := by
  induction h with
  | done => exact nofun
  | @piece c cs cut pieces hpiece _ ih =>
    intro kind hkind
    obtain ⟨piece, hmem, hvalue⟩ := List.mem_filterMap.1 hkind
    rcases List.mem_cons.1 hmem with rfl | hmem
    · exact ⟨c, cs, cut, hpiece, hvalue⟩
    · exact ih kind (List.mem_filterMap.2 ⟨piece, hmem, hvalue⟩)

/-- Every token of a source but the last one is one that can be read. -/
theorem Token.isToken_of_ofSource {source : String} {stream : List Token} {last : Token}
    (h : ofSource source = .ok (stream ++ [last])) (hlast : last.kind = .eof) :
    ∀ t ∈ stream, t.kind.IsToken := by
  obtain ⟨pieces, hcuts, hplaced⟩ := exists_cuts h
  have hkinds := map_kind_placePieces .start pieces
  rw [← hplaced, List.map_append, List.map_singleton, hlast] at hkinds
  intro t ht
  apply hcuts.isToken
  rw [← List.append_cancel_right hkinds]
  exact List.mem_map_of_mem ht

theorem Module.Accounts.isRenderOf {m : Module} {items : List Item} (h : m.Accounts items) :
    ∀ text ∈ m.fragments, ∃ item ∈ items, IsRenderOf item.tokens text := by
  intro text htext
  obtain ⟨d, hd, htext⟩ := List.mem_flatMap.1 htext
  obtain ⟨s, hs, hreads⟩ := exists_of_mem_forall₂ h.declarations hd
  obtain ⟨hitem, hbefore⟩ := Item.mem_declarations hs
  have hbehind : ∀ {i}, i ∈ Item.behind .doc (Item.behind .header items) → i ∈ items := by
    intro i hi
    exact (behind_sublist .header items).subset ((behind_sublist .doc _).subset hi)
  rcases List.mem_append.1 htext with hsignature | hown
  · obtain ⟨sig, hsig, rfl⟩ := List.mem_map.1 hsignature
    obtain ⟨i, hi, hread⟩ := Item.exists_of_waitingSignature
      (Item.signature_of_readsAs hreads (Option.mem_toList.1 hsig))
    have hmem : i ∈ s.1 := List.mem_of_mem_head? (Option.mem_filter_iff.1 hi).1
    exact ⟨i, hbehind (hbefore i hmem), Reader.signature_renders.onTokens hread⟩
  · exact ⟨s.2, hbehind hitem, (Reader.declaration_renders _ _ _).onTokens hreads.1 text hown⟩

/-- **What is read of the rendered texts in a module.** Each of them is rendered from tokens of
    the source in a row, and is read as these tokens, unless a literal among them is garbled
    or a brace stands directly before a dash. -/
theorem Module.ofSource_fragments {source : String} {m : Module} (h : ofSource source = .ok m) :
    ∃ stream last, Token.ofSource source = .ok (stream ++ [last]) ∧
      ∀ text ∈ m.fragments, ∃ row, row <:+: stream ∧ text = render row ∧ Rereads row := by
  obtain ⟨stream, last, htokens, hlast, hstream, hmodule, hitems⟩ := exists_ofTokens h
  have haccounts := ofTokens_accounts hmodule
  rw [hitems] at haccounts
  refine ⟨stream, last, htokens, ?_⟩
  intro text htext
  obtain ⟨item, hitem, row, hrow, rfl⟩ := haccounts.isRenderOf text htext
  have hwithin : row <:+: stream := by
    rw [← Item.allTokens_cut stream]
    exact hrow.trans (Item.tokens_infix_allTokens hitem)
  refine ⟨row, hwithin, rfl, rereads_of_isToken ?_⟩
  intro t ht
  exact Token.isToken_of_ofSource htokens hlast t (hwithin.subset ht)

/-! ### Fragments that are read back, and some that are not -/

namespace Fragmented

/-- A module with rendered texts of all kinds. -/
def source : String :=
  "port module A exposing (..)\n\ntype alias P = \x7b x : Int \x7d\ntype T a = C (List a) D.E\n" ++
    "port p : Int -> Cmd a\nf : a -> ( a, Int )\nf ( x , 'c' ) \"\\n\\u\x7b7\x7d'\" 0XfF -1 = x\n"

theorem ofSource_fragments_source :
    ∃ m, Module.ofSource source = .ok m ∧
      m.fragments = ["\x7bx : Int\x7d", "(List a)", "D.E", "Int -> Cmd a", "a -> (a, Int)",
        "(x, 'c')", "\"\\n\\u\x7b7\x7d'\"", "0xfF", "-", "1"] ∧
      ∃ stream last, Token.ofSource source = .ok (stream ++ [last]) ∧
        ∀ text ∈ m.fragments, ∃ row, row <:+: stream ∧ text = render row ∧ Rereads row := by
  have hfragments : (Module.ofSource source).toOption.map Module.fragments =
      some ["\x7bx : Int\x7d", "(List a)", "D.E", "Int -> Cmd a", "a -> (a, Int)", "(x, 'c')",
        "\"\\n\\u\x7b7\x7d'\"", "0xfF", "-", "1"] := by decide +kernel
  cases hmodule : Module.ofSource source with
  | error ds =>
    rw [hmodule] at hfragments
    cases hfragments
  | ok m =>
    rw [hmodule] at hfragments
    exact ⟨m, rfl, Option.some.inj hfragments, Module.ofSource_fragments hmodule⟩

/-- Is a source accepted with one rendered text, which cannot be read? -/
def IsUnread (source text : String) : Prop :=
  ∃ m, Module.ofSource source = .ok m ∧ m.fragments = [text] ∧ ∃ e, Token.ofSource text = .error e

theorem isUnread_of {source text : String}
    (hsource : (Module.ofSource source).toOption.map Module.fragments = some [text])
    (htext : (Token.ofSource text).toOption = none) : IsUnread source text := by
  unfold IsUnread
  cases hmodule : Module.ofSource source with
  | error ds =>
    rw [hmodule] at hsource
    cases hsource
  | ok m =>
    rw [hmodule] at hsource
    refine ⟨m, rfl, Option.some.inj hsource, ?_⟩
    cases hread : Token.ofSource text with
    | error e => exact ⟨e, rfl⟩
    | ok read =>
      rw [hread] at htext
      cases htext

/-- A quote, a backslash, NUL, and a brace before a dash. -/
theorem fragments_unread :
    IsUnread "f '\\'' = 1\n" "'''" ∧ IsUnread "f '\\\\' = 1\n" "'\\'" ∧
      IsUnread "f \"\\u\x7b0\x7d\" = 1\n" "\"\\0\"" ∧
      IsUnread "x : \x7b - \x7d\nx = 1\n" "\x7b-\x7d" := by
  refine ⟨isUnread_of ?_ ?_, isUnread_of ?_ ?_, isUnread_of ?_ ?_, isUnread_of ?_ ?_⟩
  all_goals decide +kernel

end Fragmented

end ElmIntake
