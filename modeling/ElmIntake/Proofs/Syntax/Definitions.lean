import ElmIntake.Proofs.Syntax.Nesting
import ElmIntake.Proofs.Syntax.Success

/-! # Definitions and custom types, token by token

    What the tokens of a definition `name rest` and of a custom type
    `type Name parameters = rest` are taken apart into.

    In `rest` brackets are nested. A definition is split at the first `=` outside all of
    them: its arguments are the single tokens and the groups before it, and its body is
    all behind it. A custom type has a constructor for each piece between two bars
    outside all brackets, with its name first and its arguments behind.

    Main statement: `Reader.definitions_decompose`. -/

namespace ElmIntake

/-! ## Parts of definitions -/

/-- Are these the single tokens and the groups that make up the tokens, in order? -/
structure IsPartition (groups : List (List Token)) (tokens : List Token) : Prop where
  flatten : groups.flatten = tokens
  atoms : ∀ group ∈ groups, IsAtom group

/-- **Do the tokens make up a body?** The words of conditions, of `let` and of `case` are
    counted, wherever they stand. -/
structure IsComplete (body : List Token) : Prop where
  /-- There is a last token, and an expression can end with it. -/
  last : ∃ t ∈ body.getLast?, (∀ symbols, t.kind ≠ .operator symbols) ∧
    t.kind ∉ [.equals, .colon, .pipe, .arrow, .backslash, .comma]
  thens : body.countP (·.kind == .keyword .ifWord) = body.countP (·.kind == .keyword .thenWord)
  elses : body.countP (·.kind == .keyword .ifWord) = body.countP (·.kind == .keyword .elseWord)
  lets : body.countP (·.kind == .keyword .letWord) = body.countP (·.kind == .keyword .inWord)
  cases : body.countP (·.kind == .keyword .caseWord) = body.countP (·.kind == .keyword .ofWord)

/-- Does a span go from the first to the last of the tokens? -/
def Span.Covers (span : Span) (tokens : List Token) : Prop :=
  ∃ first ∈ tokens.head?, ∃ last ∈ tokens.getLast?, span = first.span.combine last.span

/-- Is the piece non-empty, and its first token a capitalised name without dots? -/
def BeginsWithName (piece : List Token) : Prop :=
  ∃ t rest name, piece = t :: rest ∧ t.kind = .upperName name ∧ Reader.isDotted name = false

/-- Is a constructor made of the piece: the first token its name, and its arguments the
    single tokens and groups behind? -/
def Constructor.IsOfPiece (c : Constructor) (piece : List Token) : Prop :=
  ∃ t rest, piece = t :: rest ∧ t.kind = .upperName c.name.node ∧ c.name.span = t.span ∧
    ∃ groups, IsPartition groups rest ∧ c.arguments = groups.map render

theorem isPartition_atoms {tokens : List Token} (h : AreNested tokens) :
    IsPartition ((atoms tokens).map Atom.tokens) tokens where
  flatten := by
    rw [← List.flatMap_def]
    exact flatMap_atomsFrom 0 tokens
  atoms := by
    intro group hgroup
    obtain ⟨a, ha, rfl⟩ := List.mem_map.1 hgroup
    exact isAtom_of_mem_atoms h a ha

theorem Span.covers_spanOf {tokens : List Token} (hne : tokens ≠ []) :
    (Reader.spanOf tokens).Covers tokens := by
  cases tokens with
  | nil => exact absurd rfl hne
  | cons t rest =>
    refine ⟨t, rfl, rest.getLast?.getD t, ?_, ?_⟩
    · rw [Option.mem_def, List.getLast?_cons]
    · show t.span.combine _ = _
      cases rest.getLast? <;> rfl

namespace Reader

/-! ## Bodies -/

theorem isDangling_eq_false_iff {kind : TokenKind} :
    isDangling kind = false ↔ (∀ symbols, kind ≠ .operator symbols) ∧
      kind ∉ [.equals, .colon, .pipe, .arrow, .backslash, .comma] := by
  cases kind <;> simp [isDangling]

/-- A check that throws, or goes on. -/
theorem unless_ok_iff {p : Prop} [Decidable p] {e : SyntaxError}
    {next : Unit → Except SyntaxError Unit} :
    (if p then (throw e >>= next) else next ()) = .ok () ↔ ¬ p ∧ next () = .ok () := by
  by_cases hp : p
  · rw [if_pos hp]
    constructor
    · intro h
      cases h
    · rintro ⟨hnot, -⟩
      exact absurd hp hnot
  · rw [if_neg hp]
    exact (and_iff_right hp).symm

theorem otherwise_ok_iff {p : Prop} [Decidable p] {e : SyntaxError} :
    (if p then throw e else pure () : Except SyntaxError Unit) = .ok () ↔ ¬ p := by
  by_cases hp : p
  · simp [hp, throw, throwThe, MonadExceptOf.throw]
  · simp [hp, pure, Except.pure]

theorem checkBody_ok_iff {owner : String} {before : Span} {body : List Token} :
    checkBody owner before body = .ok () ↔ IsComplete body := by
  unfold checkBody
  cases hlast : body.getLast? with
  | none =>
    constructor
    · intro h
      cases h
    · rintro ⟨⟨t, ht, -⟩, -⟩
      rw [hlast] at ht
      cases ht
  | some last =>
    have hend : (∃ t ∈ some last, (∀ symbols, t.kind ≠ .operator symbols) ∧
        t.kind ∉ [.equals, .colon, .pipe, .arrow, .backslash, .comma]) ↔
          ¬ isDangling last.kind = true := by
      rw [Bool.not_eq_true, isDangling_eq_false_iff]
      simp
    dsimp only
    rw [unless_ok_iff, unless_ok_iff, unless_ok_iff, otherwise_ok_iff, ← hend, ← hlast]
    constructor
    · rintro ⟨hends, hif, hlet, hcase⟩
      rw [not_or, not_not, not_not] at hif
      exact ⟨hends, hif.1, hif.2, not_not.1 hlet, not_not.1 hcase⟩
    · rintro ⟨hends, hthens, helses, hlets, hcases⟩
      exact ⟨hends, not_or.2 ⟨not_not.2 hthens, not_not.2 helses⟩, not_not.2 hlets,
        not_not.2 hcases⟩

/-! ## Definitions -/

theorem argumentsAndBody_ok_iff {owner : Name} {tokens : List Token}
    {arguments : List (Located String)} {span : Span} :
    argumentsAndBody owner tokens = .ok (arguments, span) ↔
      AreNested tokens ∧ ∃ before equals body, SplitsAt .equals tokens before equals body ∧
        IsComplete body ∧ arguments = ((atoms before).map fun a => ⟨render a.tokens, a.span⟩) ∧
        span = spanOf body := by
  rw [argumentsAndBody_eq_ok_iff, balanced_iff]
  refine and_congr_right fun hnested => ?_
  refine exists_congr fun before => exists_congr fun equals => exists_congr fun body => ?_
  rw [splitAtTop?_iff hnested, checkBody_ok_iff]

theorem declarationName_run (behind : Span) (name : String) (span : Span) (rest : List Token) :
    declarationName ⟨behind, ⟨.lowerName name, span⟩ :: rest⟩ =
      if isDotted name = true then .error ⟨.dottedDeclaration name, span⟩
      else .ok (⟨name, span⟩, ⟨span, rest⟩) := by
  show (if isDotted name = true then fail (.dottedDeclaration name)
    else (next .name >>= fun t => pure ⟨name, t.span⟩) : Reader Name) _ = _
  split <;> rfl

variable {doc : Option (Located String)} {sig : Option Signature} {name : String} {span : Span}
  {rest : List Token}

/-- A definition is read just if its name has no dots and the rest is taken apart. -/
theorem exists_valueDeclaration_iff {arguments : List (Located String)} {body : Span} :
    (∃ d, (valueDeclaration doc sig).onTokens (⟨.lowerName name, span⟩ :: rest) = .ok d ∧
      d.arguments = arguments ∧ d.body = body) ↔
        isDotted name = false ∧ argumentsAndBody ⟨name, span⟩ rest = .ok (arguments, body) := by
  have hname := declarationName_run .dummy name span rest
  constructor
  · rintro ⟨d, hd, rfl, rfl⟩
    obtain ⟨c', hrun⟩ := onTokens_ok_iff.1 hd
    obtain ⟨first, c₁, hhere, hrest⟩ := bind_ok_iff.1 hrun
    obtain rfl := here_ok hhere
    obtain ⟨n, c₂, hdeclared, hrest⟩ := bind_ok_iff.1 hrest
    rw [show Cursor.start _ = ⟨.dummy, _⟩ from rfl, hname] at hdeclared
    split at hdeclared
    · cases hdeclared
    · next hplain =>
      cases hdeclared
      obtain ⟨tokens, c₃, hremaining, hrest⟩ := bind_ok_iff.1 hrest
      cases hremaining
      obtain ⟨parts, c₄, hparts, hrest⟩ := bind_ok_iff.1 hrest
      obtain ⟨whole, c₅, hsince, hend⟩ := bind_ok_iff.1 hrest
      cases hend
      exact ⟨Bool.eq_false_iff.2 hplain, (lift_ok_iff.1 hparts).1⟩
  · rintro ⟨hplain, hparts⟩
    rw [hplain, if_neg Bool.false_ne_true] at hname
    let last : Cursor := Cursor.skip ⟨span, rest⟩ rest.length
    have hrun : valueDeclaration doc sig (.start (⟨.lowerName name, span⟩ :: rest)) =
        .ok (⟨doc, sig, ⟨name, span⟩, arguments, body, span.combine last.behind⟩, last) := by
      refine (bind_of_ok rfl).trans ?_
      refine (bind_of_ok hname).trans ?_
      refine (bind_of_ok rfl).trans ?_
      refine (bind_of_ok (lift_ok_iff.2 ⟨hparts, rfl⟩)).trans ?_
      rfl
    exact ⟨_, onTokens_ok_iff.2 ⟨last, hrun⟩, rfl, rfl⟩

/-! ## Custom types -/

theorem constructor_ok_iff {before : Span} {piece : List Token} {c : Constructor} :
    constructor before piece = .ok c ↔ ∃ t rest name, piece = t :: rest ∧
      t.kind = .upperName name ∧ isDotted name = false ∧
        c = ⟨⟨name, t.span⟩, (atoms rest).map (render ·.tokens), spanOf piece⟩ := by
  cases piece with
  | nil =>
    constructor
    · intro h
      cases h
    · rintro ⟨t, rest, name, h, -⟩
      cases h
  | cons t rest =>
    constructor
    · intro h
      unfold constructor at h
      dsimp only at h
      split at h
      · next name hkind =>
        split at h
        · cases h
        · next hplain =>
          cases h
          exact ⟨t, rest, name, rfl, hkind, Bool.eq_false_iff.2 hplain, rfl⟩
      · cases h
    · rintro ⟨t', rest', name, heq, hkind, hplain, rfl⟩
      cases heq
      unfold constructor
      dsimp only
      rw [hkind]
      dsimp only
      rw [hplain, if_neg Bool.false_ne_true]
      rfl

theorem typeName_run (behind : Span) (name : String) (span : Span) (rest : List Token) :
    typeName ⟨behind, ⟨.upperName name, span⟩ :: rest⟩ =
      if isDotted name = true then .error ⟨.dottedType name, span⟩
      else .ok (⟨name, span⟩, ⟨span, rest⟩) := by
  show (if isDotted name = true then failAt (.dottedType name) span
    else pure ⟨name, span⟩ : Reader Name) _ = _
  split <;> rfl

/-- The tokens of type parameters. -/
def parameterTokens (parameters : List Name) : List Token :=
  parameters.map fun parameter => ⟨.lowerName parameter.node, parameter.span⟩

theorem leadingLowerNames_parameterTokens (parameters : List Name) (equals : Span)
    (rest : List Token) :
    leadingLowerNames (parameterTokens parameters ++ ⟨.equals, equals⟩ :: rest) = parameters := by
  induction parameters with
  | nil => rfl
  | cons parameter parameters ih =>
    show parameter :: leadingLowerNames (parameterTokens parameters ++ _) = _
    rw [ih]

/-- The parameters before `=` are read just if they have no dots. -/
theorem typeParameters_ok_iff {behind equals : Span} {parameters names : List Name} {c : Cursor}
    {rest : List Token} :
    typeParameters ⟨behind, parameterTokens parameters ++ ⟨.equals, equals⟩ :: rest⟩ =
        .ok (names, c) ↔
      (∀ parameter ∈ parameters, isDotted parameter.node = false) ∧ parameters = names ∧
        c = Cursor.skip ⟨behind, parameterTokens parameters ++ ⟨.equals, equals⟩ :: rest⟩
          parameters.length := by
  have hplain : parameters.find? (isDotted ·.node) = none ↔
      ∀ parameter ∈ parameters, isDotted parameter.node = false := by
    simp [List.find?_eq_none]
  rw [← hplain]
  unfold typeParameters
  rw [bind_of_ok rfl]
  dsimp only
  rw [leadingLowerNames_parameterTokens]
  cases parameters.find? (isDotted ·.node) with
  | some parameter =>
    constructor
    · intro h
      cases h
    · rintro ⟨h, -⟩
      cases h
  | none =>
    constructor
    · intro h
      cases h
      exact ⟨rfl, rfl, rfl⟩
    · rintro ⟨-, rfl, rfl⟩
      rfl

theorem exists_skip_parameterTokens (behind : Span) (parameters : List Name) (rest : List Token) :
    ∃ behind', Cursor.skip ⟨behind, parameterTokens parameters ++ rest⟩ parameters.length =
      ⟨behind', rest⟩ := by
  have hlength : parameters.length = (parameterTokens parameters).length :=
    (List.length_map _).symm
  refine ⟨_, congrArg (Cursor.mk _) ?_⟩
  rw [hlength, List.drop_left]

theorem expect_run (what : Expected) (behind : Span) (kind : TokenKind) (span : Span)
    (rest : List Token) :
    expect kind what ⟨behind, ⟨kind, span⟩ :: rest⟩ = .ok (span, ⟨span, rest⟩) := by
  refine (bind_of_ok rfl).trans ?_
  have haccept : accept kind ⟨behind, ⟨kind, span⟩ :: rest⟩ = .ok (true, ⟨span, rest⟩) := by
    refine (bind_of_ok rfl).trans ?_
    show (if some kind = some kind then _ else _ : Reader Bool) _ = _
    rw [if_pos rfl]
    rfl
  exact (bind_of_ok haccept).trans rfl

/-- The tokens of a custom type. -/
def typeTokens (word name : Span) (text : String) (parameters : List Name) (equals : Span)
    (rest : List Token) : List Token :=
  ⟨.keyword .typeWord, word⟩ :: ⟨.upperName text, name⟩ ::
    (parameterTokens parameters ++ ⟨.equals, equals⟩ :: rest)

/-- A custom type is read just if its names have no dots, the rest is nested, and each
    part of it makes up a constructor. -/
theorem exists_typeDeclaration_iff {word place equals : Span} {parameters : List Name}
    {constructors : List Constructor} :
    (∃ d, (typeDeclaration doc).onTokens (typeTokens word place name parameters equals rest) =
        .ok d ∧ d.constructors = constructors) ↔
      isDotted name = false ∧ (∀ parameter ∈ parameters, isDotted parameter.node = false) ∧
        AreNested rest ∧ List.Forall₂ (fun piece c => constructor equals piece = .ok c)
          (partsAtTop .pipe 0 rest) constructors := by
  have hname := typeName_run word name place
    (parameterTokens parameters ++ ⟨.equals, equals⟩ :: rest)
  obtain ⟨behind, hskip⟩ :=
    exists_skip_parameterTokens place parameters (⟨.equals, equals⟩ :: rest)
  have hequals := expect_run (.equalsAfterType name) behind .equals equals rest
  let last : Cursor := Cursor.skip ⟨equals, rest⟩ rest.length
  have hremaining : remaining ⟨equals, rest⟩ = .ok (rest, last) := rfl
  constructor
  · -- What was read is taken apart step by step.
    rintro ⟨d, hd, rfl⟩
    obtain ⟨c', hrun⟩ := onTokens_ok_iff.1 hd
    obtain ⟨first, c₁, hhere, hrest⟩ := bind_ok_iff.1 hrun
    obtain rfl := here_ok hhere
    obtain ⟨_, c₂, hword, hrest⟩ := bind_ok_iff.1 hrest
    cases hword
    obtain ⟨declared, c₃, hdeclared, hrest⟩ := bind_ok_iff.1 hrest
    replace hdeclared := hname.symm.trans hdeclared
    split at hdeclared
    · cases hdeclared
    · next hplain =>
      cases hdeclared
      obtain ⟨names, c₄, hnames, hrest⟩ := bind_ok_iff.1 hrest
      obtain ⟨hparameters, rfl, rfl⟩ := typeParameters_ok_iff.1 hnames
      rw [hskip, bind_of_ok hequals, bind_of_ok hremaining] at hrest
      obtain ⟨_, c₅, hbalanced, hrest⟩ := bind_ok_iff.1 hrest
      obtain ⟨constructors, c₆, hconstructors, hrest⟩ := bind_ok_iff.1 hrest
      obtain ⟨whole, c₇, hsince, hend⟩ := bind_ok_iff.1 hrest
      cases hend
      refine ⟨Bool.eq_false_iff.2 hplain, hparameters, ?_, ?_⟩
      · exact balanced_iff.1 (lift_ok_iff.1 hbalanced).1
      · exact (mapM_lift_ok_iff.1 hconstructors).1
  · -- Each step is known to go well, so all of them do.
    rintro ⟨hplain, hparameters, hnested, hconstructors⟩
    rw [hplain, if_neg Bool.false_ne_true] at hname
    have hnames := typeParameters_ok_iff.2 ⟨hparameters, rfl, hskip.symm⟩
    have hrun : typeDeclaration doc
        (.start (typeTokens word place name parameters equals rest)) =
          .ok (⟨doc, ⟨name, place⟩, parameters, constructors, word.combine last.behind⟩, last) := by
      refine (bind_of_ok rfl).trans ?_
      refine (bind_of_ok rfl).trans ?_
      refine (bind_of_ok hname).trans ?_
      refine (bind_of_ok hnames).trans ?_
      refine (bind_of_ok hequals).trans ?_
      refine (bind_of_ok hremaining).trans ?_
      refine (bind_of_ok (lift_ok_iff.2 ⟨balanced_iff.2 hnested, rfl⟩)).trans ?_
      refine (bind_of_ok (mapM_lift_ok_iff.2 ⟨hconstructors, rfl⟩)).trans ?_
      rfl
    exact ⟨_, onTokens_ok_iff.2 ⟨last, hrun⟩, rfl⟩

theorem exists_constructor_iff {before : Span} {piece : List Token} :
    (∃ c, constructor before piece = .ok c) ↔ BeginsWithName piece := by
  constructor
  · rintro ⟨c, hc⟩
    obtain ⟨t, rest, name, hpiece, hkind, hplain, -⟩ := constructor_ok_iff.1 hc
    exact ⟨t, rest, name, hpiece, hkind, hplain⟩
  · rintro ⟨t, rest, name, hpiece, hkind, hplain⟩
    exact ⟨_, constructor_ok_iff.2 ⟨t, rest, name, hpiece, hkind, hplain, rfl⟩⟩

theorem exists_constructors_iff {before : Span} {pieces : List (List Token)} :
    (∃ constructors, List.Forall₂ (fun piece c => constructor before piece = .ok c) pieces
      constructors) ↔ ∀ piece ∈ pieces, BeginsWithName piece := by
  induction pieces with
  | nil =>
    constructor
    · intro _ piece hpiece
      cases hpiece
    · intro _
      exact ⟨[], .nil⟩
  | cons piece pieces ih =>
    rw [List.forall_mem_cons, ← ih, ← exists_constructor_iff]
    constructor
    · rintro ⟨constructors, hconstructors⟩
      cases hconstructors with
      | cons hfirst hothers => exact ⟨⟨_, hfirst⟩, _, hothers⟩
    · rintro ⟨⟨c, hc⟩, constructors, hconstructors⟩
      exact ⟨c :: constructors, .cons hc hconstructors⟩

/-- The arguments of a constructor are the single tokens and groups behind its name. -/
theorem isOfPiece_of_constructor {before : Span} {piece : List Token} {c : Constructor}
    (hnested : AreNested piece) (h : constructor before piece = .ok c) : c.IsOfPiece piece := by
  obtain ⟨t, rest, name, rfl, hkind, -, rfl⟩ := constructor_ok_iff.1 h
  have hrest : AreNested rest := by
    refine hnested.of_cons ?_ ?_
    · rw [hkind]
      rfl
    · rw [hkind]
      rfl
  refine ⟨t, rest, rfl, hkind, rfl, _, isPartition_atoms hrest, ?_⟩
  rw [List.map_map]
  rfl

theorem forall₂_isOfPiece {before : Span} {pieces : List (List Token)}
    {constructors : List Constructor} (hnested : ∀ piece ∈ pieces, AreNested piece)
    (h : List.Forall₂ (fun piece c => constructor before piece = .ok c) pieces constructors) :
    List.Forall₂ Constructor.IsOfPiece constructors pieces := by
  induction h with
  | nil => exact .nil
  | cons hfirst _ ih =>
    obtain ⟨hpiece, hpieces⟩ := List.forall_mem_cons.1 hnested
    exact .cons (isOfPiece_of_constructor hpiece hfirst) (ih hpieces)

/-! ## Both of them -/

/-- **How a definition `name rest` is taken apart**. -/
structure DecomposesValue (name : String) (rest : List Token)
    (outcome : Except SyntaxError ValueDeclaration) : Prop where
  succeeds_iff : (∃ d, outcome = .ok d) ↔ isDotted name = false ∧ AreNested rest ∧
    ∃ before equals body, SplitsAt .equals rest before equals body ∧ IsComplete body
  /-- The arguments are the single tokens and the groups before `=`. -/
  arguments : ∀ d before equals body, outcome = .ok d →
    SplitsAt .equals rest before equals body → ∃ groups, IsPartition groups before ∧
      d.arguments = groups.map fun group => ⟨render group, spanOf group⟩
  body : ∀ d before equals body, outcome = .ok d →
    SplitsAt .equals rest before equals body → d.body.Covers body

/-- **How a custom type `type Name parameters = rest` is taken apart**. -/
structure DecomposesType (name : String) (parameters : List Name) (rest : List Token)
    (outcome : Except SyntaxError TypeDeclaration) : Prop where
  succeeds_iff : (∃ d, outcome = .ok d) ↔ isDotted name = false ∧
    (∀ parameter ∈ parameters, isDotted parameter.node = false) ∧ AreNested rest ∧
      ∃ pieces, Pieces .pipe rest pieces ∧ ∀ piece ∈ pieces, BeginsWithName piece
  /-- There is one constructor for each piece, in order. -/
  constructors : ∀ d pieces, outcome = .ok d → Pieces .pipe rest pieces →
    List.Forall₂ Constructor.IsOfPiece d.constructors pieces

theorem decomposesValue (doc : Option (Located String)) (sig : Option Signature) (name : String)
    (span : Span) (rest : List Token) :
    DecomposesValue name rest
      ((valueDeclaration doc sig).onTokens (⟨.lowerName name, span⟩ :: rest)) := by
  -- What is read is taken apart where it is split, and it is split in one way only.
  have hparts : ∀ d before equals body,
      (valueDeclaration doc sig).onTokens (⟨.lowerName name, span⟩ :: rest) = .ok d →
        SplitsAt .equals rest before equals body → IsComplete body ∧
          d.arguments = ((atoms before).map fun a => ⟨render a.tokens, a.span⟩) ∧
            d.body = spanOf body := by
    intro d before equals body hd hsplits
    obtain ⟨-, hread⟩ := exists_valueDeclaration_iff.1 ⟨d, hd, rfl, rfl⟩
    obtain ⟨hnested, before', equals', body', hsplits', hcomplete, harguments, hbody⟩ :=
      argumentsAndBody_ok_iff.1 hread
    have hsame := ((splitAtTop?_iff hnested).2 hsplits).symm.trans
      ((splitAtTop?_iff hnested).2 hsplits')
    cases hsame
    exact ⟨hcomplete, harguments, hbody⟩
  constructor
  case succeeds_iff =>
    constructor
    · rintro ⟨d, hd⟩
      obtain ⟨hplain, hread⟩ := exists_valueDeclaration_iff.1 ⟨d, hd, rfl, rfl⟩
      obtain ⟨hnested, before, equals, body, hsplits, hcomplete, -⟩ :=
        argumentsAndBody_ok_iff.1 hread
      exact ⟨hplain, hnested, before, equals, body, hsplits, hcomplete⟩
    · rintro ⟨hplain, hnested, before, equals, body, hsplits, hcomplete⟩
      have hread : argumentsAndBody ⟨name, span⟩ rest = .ok (_, _) :=
        argumentsAndBody_ok_iff.2 ⟨hnested, before, equals, body, hsplits, hcomplete, rfl, rfl⟩
      obtain ⟨d, hd, -⟩ := exists_valueDeclaration_iff.2 ⟨hplain, hread⟩
      exact ⟨d, hd⟩
  case arguments =>
    intro d before equals body hd hsplits
    obtain ⟨-, harguments, -⟩ := hparts d before equals body hd hsplits
    refine ⟨_, isPartition_atoms hsplits.outside, ?_⟩
    rw [harguments, List.map_map]
    rfl
  case body =>
    intro d before equals body hd hsplits
    obtain ⟨⟨⟨t, ht, -⟩, -⟩, -, hbody⟩ := hparts d before equals body hd hsplits
    rw [hbody]
    apply Span.covers_spanOf
    rintro rfl
    cases ht

theorem decomposesType (doc : Option (Located String)) (name : String) (parameters : List Name)
    (rest : List Token) (word place equals : Span) :
    DecomposesType name parameters rest
      ((typeDeclaration doc).onTokens (typeTokens word place name parameters equals rest)) := by
  have hopen : TokenKind.pipe.isOpening = false := rfl
  have hclose : TokenKind.pipe.isClosing = false := rfl
  constructor
  case succeeds_iff =>
    constructor
    · rintro ⟨d, hd⟩
      obtain ⟨hplain, hparameters, hnested, hconstructors⟩ :=
        exists_typeDeclaration_iff.1 ⟨d, hd, rfl⟩
      refine ⟨hplain, hparameters, hnested, _, (pieces_iff hopen hclose hnested).2 rfl, ?_⟩
      exact exists_constructors_iff.1 ⟨_, hconstructors⟩
    · rintro ⟨hplain, hparameters, hnested, pieces, hpieces, hbegins⟩
      obtain ⟨constructors, hconstructors⟩ := exists_constructors_iff.2 hbegins
      rw [← (pieces_iff hopen hclose hnested).1 hpieces] at hconstructors
      obtain ⟨d, hd, -⟩ :=
        exists_typeDeclaration_iff.2 ⟨hplain, hparameters, hnested, hconstructors⟩
      exact ⟨d, hd⟩
  case constructors =>
    intro d pieces hd hpieces
    obtain ⟨-, -, hnested, hconstructors⟩ := exists_typeDeclaration_iff.1 ⟨d, hd, rfl⟩
    rw [(pieces_iff hopen hclose hnested).1 hpieces] at hconstructors
    exact forall₂_isOfPiece (hpieces.areNested hopen hclose hnested) hconstructors

/-- **Definitions and custom types decompose their tokens**: they are read just if the
    tokens can be taken apart as they should, and what is read are exactly the parts. -/
theorem definitions_decompose (doc : Option (Located String)) (sig : Option Signature) :
    (∀ name span rest, DecomposesValue name rest
      ((valueDeclaration doc sig).onTokens (⟨.lowerName name, span⟩ :: rest))) ∧
    ∀ name parameters rest word place equals, DecomposesType name parameters rest
      ((typeDeclaration doc).onTokens (typeTokens word place name parameters equals rest)) :=
  ⟨decomposesValue doc sig, decomposesType doc⟩

/-- What stands behind the name in `List.map = 1`. -/
def dottedRest : List Token := [⟨.equals, ⟨9, 10, 1, 10⟩⟩, ⟨.number "1", ⟨11, 12, 1, 12⟩⟩]

/-- The rest of this definition is as it should be, but its name has a dot. -/
theorem dotted_definition_refused :
    (Token.ofSource "List.map = 1\n").toOption = some
        (⟨.lowerName "List.map", ⟨0, 8, 1, 1⟩⟩ :: dottedRest ++ [⟨.eof, ⟨13, 13, 2, 1⟩⟩]) ∧
      AreNested dottedRest ∧
      (∃ before equals body, SplitsAt .equals dottedRest before equals body ∧ IsComplete body) ∧
      ¬ ∃ d, (valueDeclaration none none).onTokens
        (⟨.lowerName "List.map", ⟨0, 8, 1, 1⟩⟩ :: dottedRest) = .ok d := by
  have hnested : AreNested dottedRest := balanced_iff.1 rfl
  refine ⟨by decide +kernel, hnested, ⟨[], _, _, (splitAtTop?_iff hnested).1 rfl, ?_⟩, ?_⟩
  · exact (checkBody_ok_iff.1 (rfl : checkBody "List.map" .dummy dottedRest.tail = .ok ()))
  · rintro ⟨d, hd⟩
    obtain ⟨hplain, -⟩ := exists_valueDeclaration_iff.1 ⟨d, hd, rfl, rfl⟩
    have hdotted : isDotted "List.map" = true := by decide +kernel
    rw [hdotted] at hplain
    cases hplain

end Reader

end ElmIntake
