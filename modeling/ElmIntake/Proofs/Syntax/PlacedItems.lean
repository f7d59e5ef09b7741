import ElmIntake.Proofs.Syntax.Places

/-! # The places in an item

    Every reader of an item gives names that are tokens of this item, and places
    that are those of its tokens. One lemma for each reader, put together like the
    readers (`Reader.Moves`); then what a declaration as a whole is like
    (`Declaration.IsPlacedIn`). -/

namespace ElmIntake

/-! ## What has a name or a place -/

/-- The values in an exposing list, as names. -/
def Exposing.values : Exposing → List Name
  | all _ => []
  | listed items => items.filterMap fun item =>
    match item.node with
    | .value name => some ⟨name, item.span⟩
    | _ => none

namespace Declaration

/-- The names in a declaration, without that of its signature. -/
def names : Declaration → List Name
  | value d => [d.name]
  | synonym d => d.name :: d.parameters
  | type d => d.name :: d.parameters ++ d.constructors.map (·.name)
  | port d => [d.name]
  | operator d => [d.operator, d.function]

/-- The places of the parts of a declaration: of all its names, and of the
    arguments and the body of a definition, and of constructors. -/
def partSpans (d : Declaration) : List Span :=
  d.names.map (·.span) ++
    match d with
    | value v => v.arguments.map (·.span) ++ [v.body]
    | type t => t.constructors.map (·.span)
    | _ => []

/-- **What the places in a declaration are like**, which was read from some
    tokens. -/
structure IsPlacedIn (tokens : List Token) (d : Declaration) : Prop where
  span : d.span = Reader.spanOf tokens
  names : ∀ name ∈ d.names, name.IsOf tokens
  parts : ∀ s ∈ d.partSpans, s.IsOf tokens
  /-- A body goes on up to the last token. -/
  body : ∀ v, d = .value v → ∃ part, part ≠ [] ∧ part <:+ tokens ∧ v.body = Reader.spanOf part

end Declaration

/-! ## Parts and groups are rows of tokens -/

theorem splitAtTop?_eq {separator : TokenKind} {depth : Nat} {tokens before after : List Token}
    {found : Token} (h : splitAtTop? separator depth tokens = some (before, found, after)) :
    tokens = before ++ found :: after := by
  induction tokens generalizing depth before with
  | nil => cases h
  | cons t tokens ih =>
    unfold splitAtTop? at h
    split at h
    · cases h
      rfl
    · obtain ⟨⟨before', found', after'⟩, hrest, heq⟩ := Option.map_eq_some_iff.1 h
      cases heq
      rw [ih hrest]
      rfl

/-- The first part begins the tokens, and the other ones stand in them. -/
theorem rows_of_partsAtTop {separator : TokenKind} {depth : Nat} {tokens : List Token} :
    (∀ part ∈ (partsAtTop separator depth tokens).head?, part <+: tokens) ∧
      ∀ part ∈ (partsAtTop separator depth tokens).tail, part <:+: tokens := by
  induction tokens generalizing depth with
  | nil => simp [partsAtTop]
  | cons t tokens ih =>
    unfold partsAtTop
    split
    · -- At a separator all parts of the rest stand behind it.
      obtain ⟨hhead, htail⟩ := @ih 0
      refine ⟨by simp, ?_⟩
      intro part hpart
      change part ∈ partsAtTop separator 0 tokens at hpart
      cases hparts : partsAtTop separator 0 tokens with
      | nil =>
        rw [hparts] at hpart
        cases hpart
      | cons first parts =>
        rw [hparts] at hpart hhead htail
        rcases List.mem_cons.1 hpart with rfl | hpart
        · exact (hhead part rfl).isInfix.trans (List.suffix_cons t tokens).isInfix
        · exact (htail part hpart).trans (List.suffix_cons t tokens).isInfix
    · obtain ⟨hhead, htail⟩ := @ih (depthAfter depth t.kind)
      split
      · simp
      · next first parts hparts =>
        rw [hparts] at hhead htail
        refine ⟨?_, ?_⟩
        · rintro part ⟨⟩
          exact List.cons_prefix_cons.2 ⟨rfl, hhead first rfl⟩
        · intro part hpart
          exact (htail part hpart).trans (List.suffix_cons t tokens).isInfix

theorem infix_of_mem_partsAtTop {separator : TokenKind} {depth : Nat} {tokens part : List Token}
    (h : part ∈ partsAtTop separator depth tokens) : part <:+: tokens := by
  obtain ⟨hhead, htail⟩ := @rows_of_partsAtTop separator depth tokens
  cases hparts : partsAtTop separator depth tokens with
  | nil =>
    rw [hparts] at h
    cases h
  | cons first parts =>
    rw [hparts] at h hhead htail
    rcases List.mem_cons.1 h with rfl | h
    · exact (hhead part rfl).isInfix
    · exact htail part h

/-- Atoms, joined together, are the tokens that fell apart. -/
theorem flatMap_atomsFrom (depth : Nat) (tokens : List Token) :
    (atomsFrom depth tokens).flatMap Atom.tokens = tokens := by
  induction tokens generalizing depth with
  | nil => rfl
  | cons t tokens ih =>
    unfold atomsFrom
    dsimp only
    split
    · rw [List.flatMap_cons, ih]
      rfl
    · have hrest := ih (depthAfter depth t.kind)
      split
      · next hatoms =>
        rw [hatoms] at hrest
        rw [← hrest]
        rfl
      · next atom rest hatoms =>
        rw [hatoms] at hrest
        rw [← hrest]
        rfl

theorem infix_of_mem_atoms {tokens : List Token} {a : Atom} (h : a ∈ atoms tokens) :
    a.tokens <:+: tokens := by
  have hjoined := flatMap_atomsFrom 0 tokens
  have hmem : a.tokens ∈ (atomsFrom 0 tokens).map Atom.tokens := List.mem_map_of_mem h
  have hrow := List.infix_of_mem_flatten hmem
  rwa [← List.flatMap_def, hjoined] at hrow

theorem Atom.span_isOf {tokens : List Token} {a : Atom} (h : a.tokens <:+: tokens) :
    a.span.IsOf tokens :=
  ⟨a.tokens, List.cons_ne_nil _ _, h, rfl⟩

namespace Reader

variable {tokens rest : List Token} {t : Token}

/-! ## Names -/

theorem upperName_moves (what : Expected) :
    Moves (Cursor.IsIn tokens) (Cursor.IsIn tokens) (upperName what) (·.IsOf tokens) := by
  rintro ⟨before, ahead⟩ a c' hc ha
  cases ahead with
  | nil => cases ha
  | cons t rest =>
    obtain ⟨kind, span⟩ := t
    cases kind with
    | upperName name =>
      cases ha
      exact ⟨hc.skip 1, _, hc.ahead_suffix.subset List.mem_cons_self, rfl, rfl, rfl⟩
    | _ => cases ha

theorem moduleName_moves (what : Expected) :
    Moves (Cursor.IsIn tokens) (Cursor.IsIn tokens) (moduleName what)
      fun name => (⟨name.node.dotted, name.span⟩ : Name).IsOf tokens := by
  unfold moduleName
  refine (upperName_moves what).bind fun name hname => .pure ?_
  show (⟨(ModuleName.ofDotted name.node).dotted, name.span⟩ : Name).IsOf tokens
  rw [ModuleName.dotted_ofDotted]
  exact hname

theorem typeName_moves :
    Moves (Cursor.IsIn tokens) (Cursor.IsIn tokens) typeName (·.IsOf tokens) := by
  unfold typeName
  refine (upperName_moves _).bind fun name hname => ?_
  split
  · exact .failAt _ _
  · exact .pure hname

theorem declarationName_moves :
    Moves (Cursor.IsIn tokens) (Cursor.IsIn tokens) declarationName (·.IsOf tokens) := by
  rintro ⟨before, ahead⟩ a c' hc ha
  cases ahead with
  | nil => cases ha
  | cons t rest =>
    obtain ⟨kind, span⟩ := t
    cases kind with
    | lowerName name =>
      change (if isDotted name = true then fail (.dottedDeclaration name)
        else (next .name >>= fun t => Pure.pure ⟨name, t.span⟩ : Reader Name)) _ = _ at ha
      split at ha
      · cases ha
      · cases ha
        exact ⟨hc.skip 1, _, hc.ahead_suffix.subset List.mem_cons_self, rfl, rfl, rfl⟩
    | _ => cases ha

theorem leadingLowerNames_isOf {ts : List Token} (hts : ts ⊆ tokens) :
    ∀ name ∈ leadingLowerNames ts, name.IsOf tokens := by
  fun_induction leadingLowerNames ts with
  | case1 name span ts ih =>
    intro n hn
    rcases List.mem_cons.1 hn with rfl | hn
    · exact ⟨_, hts List.mem_cons_self, rfl, rfl, rfl⟩
    · exact ih (List.Subset.trans (List.subset_cons_self _ _) hts) n hn
  | case2 => simp

theorem typeParameters_moves :
    Moves (Cursor.IsIn tokens) (Cursor.IsIn tokens) typeParameters
      (∀ name ∈ ·, name.IsOf tokens) := by
  unfold typeParameters
  refine Moves.get.bind fun ahead hahead => ?_
  dsimp only
  split
  · exact .failAt _ _
  · intro c a c' hc ha
    cases ha
    exact ⟨hc.skip _, leadingLowerNames_isOf hahead.ahead_suffix.subset⟩

/-! ## Exposing lists -/

/-- Is what an item of an exposing list exposes, if a value, one of the tokens? -/
def ExposesOf (tokens : List Token) (item : Located ExposedItem) : Prop :=
  ∀ name, item.node = .value name → (⟨name, item.span⟩ : Name).IsOf tokens

theorem dotsAndClose_moves :
    Moves (Cursor.IsIn tokens) (Cursor.IsIn tokens) dotsAndClose fun _ => True :=
  (next_moves _).bind fun _ _ => expect_moves _ _

theorem exposedItem_moves :
    Moves (Cursor.IsIn tokens) (Cursor.IsIn tokens) exposedItem (ExposesOf tokens) := by
  unfold exposedItem
  refine (next_moves _).bind fun t ht => ?_
  obtain ⟨kind, span⟩ := t
  dsimp only
  split
  · next name =>
    split
    · exact .failAt _ _
    · refine .pure ?_
      intro n hn
      cases hn
      exact .of_mem ht rfl rfl
  · -- What is exposed here and below is a type or an operator, and no value.
    split
    · exact .failAt _ _
    · refine (accept_moves _).bind fun opened _ => ?_
      split
      · refine atDots_moves.bind fun dots _ => ?_
        split
        · exact missing_moves
        · refine dotsAndClose_moves.bind fun close _ => ?_
          exact (since_moves _).bind fun whole _ => .pure nofun
      · exact (since_moves _).bind fun whole _ => .pure nofun
  · refine (next_moves _).bind fun symbol _ => ?_
    split
    · refine (expect_moves _ _).bind fun close _ => ?_
      exact (since_moves _).bind fun whole _ => .pure nofun
    · exact .failAt _ _
  · exact .failAt _ _
  · exact .failAt _ _

/-- The induction is on the fuel. -/
theorem exposedItems_moves (fuel : Nat) :
    Moves (Cursor.IsIn tokens) (Cursor.IsIn tokens) (exposedItems fuel)
      (∀ item ∈ ·, ExposesOf tokens item) := by
  induction fuel with
  | zero => exact missing_moves
  | succ fuel ih =>
    refine exposedItem_moves.bind fun item hitem => ?_
    refine (accept_moves _).bind fun comma _ => ?_
    split
    · refine ih.bind fun items hitems => .pure ?_
      exact List.forall_mem_cons.2 ⟨hitem, hitems⟩
    · refine (expect_moves _ _).bind fun close _ => .pure ?_
      exact List.forall_mem_singleton.2 hitem

theorem exposing_moves :
    Moves (Cursor.IsIn tokens) (Cursor.IsIn tokens) exposing
      (∀ name ∈ ·.values, name.IsOf tokens) := by
  unfold exposing
  refine (expect_moves _ _).bind fun first _ => ?_
  refine atDots_moves.bind fun dots _ => ?_
  split
  · refine dotsAndClose_moves.bind fun close _ => .pure ?_
    intro name hname
    cases hname
  · refine Moves.get.bind fun ahead _ => ?_
    refine (exposedItems_moves _).bind fun items hitems => .pure ?_
    intro name hname
    obtain ⟨item, hitem, hvalue⟩ := List.mem_filterMap.1 hname
    split at hvalue
    · next n hn =>
      cases hvalue
      exact hitems item hitem n hn
    · cases hvalue

/-! ## Headers and imports -/

theorem settings_moves (opener : Span) :
    Moves (Cursor.IsIn tokens) (Cursor.IsIn tokens) (settings opener) fun _ => True := by
  unfold settings
  refine Moves.get.bind fun ahead _ => ?_
  split
  · intro c a c' hc ha
    cases ha
    exact ⟨hc.skip _, trivial⟩
  · exact .failAt _ _

theorem moduleKind_moves :
    Moves (Cursor.IsIn tokens) (Cursor.IsIn tokens) moduleKind fun _ => True := by
  unfold moduleKind
  refine (accept_moves _).bind fun port _ => ?_
  split
  · exact .pure trivial
  · refine (accept_moves _).bind fun effect _ => ?_
    split
    · exact .pure trivial
    · exact .pure trivial

/-- What the places in a header are like. -/
structure HeaderIsPlacedIn (tokens : List Token) (h : ModuleHeader) : Prop where
  span : h.span = spanOf tokens
  name : (⟨h.name.node.dotted, h.name.span⟩ : Name).IsOf tokens
  values : ∀ name ∈ h.exposing.values, name.IsOf tokens

theorem header_moves :
    Moves (· = .start (t :: rest)) (Cursor.IsAtEnd (t :: rest)) header
      (HeaderIsPlacedIn (t :: rest)) := by
  unfold header
  refine here_moves_start.bind fun first hfirst => ?_
  rw [hfirst]
  refine moduleKind_moves.bind fun kind _ => ?_
  refine (expectKeyword_moves _ _).bind fun _ _ => ?_
  refine (moduleName_moves _).bind fun name hname => ?_
  have hexposing : Moves (Cursor.IsIn (t :: rest)) (Cursor.IsAtEnd (t :: rest))
      (do
        expectKeyword .exposingWord (.exposingAfter name.node.dotted)
        let exposed ← exposing
        expectEnd .header
        return ⟨kind, name, exposed, false, ← since t.span⟩) (HeaderIsPlacedIn (t :: rest)) := by
    refine (expectKeyword_moves _ _).bind fun _ _ => ?_
    refine exposing_moves.bind fun exposed hexposed => ?_
    refine (expectEnd_moves _).bind fun _ _ => ?_
    exact since_moves_end.bind fun whole hwhole => .pure ⟨hwhole, hname, hexposed⟩
  -- Settings stand between the name and what is exposed, if at all.
  split
  · refine (expectKeyword_moves _ _).bind fun _ _ => ?_
    refine (expect_moves _ _).bind fun opener _ => ?_
    exact (settings_moves opener).bind fun _ _ => hexposing
  · exact hexposing

theorem importAlias_moves :
    Moves (Cursor.IsIn tokens) (Cursor.IsIn tokens) importAlias
      (∀ name ∈ ·, name.IsOf tokens) := by
  unfold importAlias
  refine (accept_moves _).bind fun as _ => ?_
  split
  · refine (upperName_moves _).bind fun name hname => ?_
    split
    · exact .failAt _ _
    · refine .pure ?_
      rintro n ⟨⟩
      exact hname
  · exact .pure nofun

theorem importExposing_moves :
    Moves (Cursor.IsIn tokens) (Cursor.IsIn tokens) importExposing
      (∀ exposed ∈ ·, ∀ name ∈ exposed.values, name.IsOf tokens) := by
  unfold importExposing
  refine (accept_moves _).bind fun word _ => ?_
  split
  · refine exposing_moves.bind fun exposed hexposed => .pure ?_
    rintro e ⟨⟩
    exact hexposed
  · exact .pure nofun

/-- What the places in an import are like. -/
structure ImportIsPlacedIn (tokens : List Token) (i : Import) : Prop where
  span : i.span = spanOf tokens
  name : (⟨i.moduleName.node.dotted, i.moduleName.span⟩ : Name).IsOf tokens
  asName : ∀ name ∈ i.asName, name.IsOf tokens
  values : ∀ exposed ∈ i.exposing, ∀ name ∈ exposed.values, name.IsOf tokens

theorem import_moves :
    Moves (· = .start (t :: rest)) (Cursor.IsAtEnd (t :: rest)) import_
      (ImportIsPlacedIn (t :: rest)) := by
  unfold import_
  refine here_moves_start.bind fun first hfirst => ?_
  rw [hfirst]
  refine (expectKeyword_moves _ _).bind fun _ _ => ?_
  refine (moduleName_moves _).bind fun name hname => ?_
  refine importAlias_moves.bind fun asName hasName => ?_
  refine importExposing_moves.bind fun exposed hexposed => ?_
  refine (expectEnd_moves _).bind fun _ _ => ?_
  exact since_moves_end.bind fun whole hwhole => .pure ⟨hwhole, hname, hasName, hexposed⟩

/-! ## Types -/

theorem typeAnnotation_moves (owner : String) :
    Moves (Cursor.IsIn tokens) (Cursor.IsAtEnd tokens) ( typeAnnotation owner) fun _ => True := by
  unfold typeAnnotation
  refine behind_moves.bind fun before _ => ?_
  refine remaining_moves.bind fun ts _ => ?_
  exact (Moves.lift fun _ _ => trivial).bind fun _ _ => .pure trivial

/-- What the places in a signature are like. -/
structure SignatureIsPlacedIn (tokens : List Token) (s : Signature) : Prop where
  span : s.span = spanOf tokens
  name : s.name.IsOf tokens

theorem signature_moves :
    Moves (· = .start (t :: rest)) (Cursor.IsAtEnd (t :: rest)) signature
      (SignatureIsPlacedIn (t :: rest)) := by
  unfold signature
  refine here_moves_start.bind fun first hfirst => ?_
  rw [hfirst]
  refine declarationName_moves.bind fun name hname => ?_
  refine (expect_moves _ _).bind fun _ _ => ?_
  refine (typeAnnotation_moves _).bind fun annotation _ => ?_
  exact since_moves_end.bind fun whole hwhole => .pure ⟨hwhole, hname⟩

/-- A declaration whose only parts are its names. -/
theorem isPlacedIn_of_names {d : Declaration} (hspan : d.span = spanOf tokens)
    (hnames : ∀ name ∈ d.names, name.IsOf tokens) (hparts : d.partSpans = d.names.map (·.span))
    (hbody : ∀ v, d ≠ .value v) : d.IsPlacedIn tokens where
  span := hspan
  names := hnames
  parts := by
    rw [hparts, List.forall_mem_map]
    intro name hname
    exact (hnames name hname).span
  body := fun v hv => absurd hv (hbody v)

theorem aliasDeclaration_moves (doc : Option (Located String)) :
    Moves (· = .start (t :: rest)) (Cursor.IsAtEnd (t :: rest)) (aliasDeclaration doc)
      fun d => (Declaration.synonym d).IsPlacedIn (t :: rest) := by
  unfold aliasDeclaration
  refine here_moves_start.bind fun first hfirst => ?_
  rw [hfirst]
  refine (expectKeyword_moves _ _).bind fun _ _ => ?_
  refine (expectKeyword_moves _ _).bind fun _ _ => ?_
  refine typeName_moves.bind fun name hname => ?_
  refine typeParameters_moves.bind fun parameters hparameters => ?_
  refine (expect_moves _ _).bind fun _ _ => ?_
  refine (typeAnnotation_moves _).bind fun annotation _ => ?_
  refine since_moves_end.bind fun whole hwhole => .pure ?_
  apply isPlacedIn_of_names
  · exact hwhole
  · exact List.forall_mem_cons.2 ⟨hname, hparameters⟩
  · exact List.append_nil _
  · nofun

theorem constructor_isOf {before : Span} {part : List Token} {c : Constructor}
    (hpart : part <:+: tokens) (h : constructor before part = .ok c) :
    c.name.IsOf tokens ∧ c.span.IsOf tokens := by
  cases part with
  | nil => cases h
  | cons t part =>
    obtain ⟨kind, span⟩ := t
    cases kind with
    | upperName name =>
      unfold constructor at h
      dsimp only at h
      split at h
      · cases h
      · cases h
        refine ⟨⟨_, hpart.subset List.mem_cons_self, rfl, rfl, rfl⟩, ?_⟩
        exact Atom.span_isOf hpart
    | _ => cases h

theorem typeDeclaration_moves (doc : Option (Located String)) :
    Moves (· = .start (t :: rest)) (Cursor.IsAtEnd (t :: rest)) (typeDeclaration doc)
      fun d => (Declaration.type d).IsPlacedIn (t :: rest) := by
  unfold typeDeclaration
  refine here_moves_start.bind fun first hfirst => ?_
  rw [hfirst]
  refine (expectKeyword_moves _ _).bind fun _ _ => ?_
  refine typeName_moves.bind fun name hname => ?_
  refine typeParameters_moves.bind fun parameters hparameters => ?_
  refine (expect_moves _ _).bind fun equals _ => ?_
  refine remaining_moves.bind fun ts hts => ?_
  refine (Moves.lift fun _ _ => trivial).bind fun _ _ => ?_
  -- A part of the rest is a part of the item.
  have hconstructors : Moves (Cursor.IsAtEnd (t :: rest)) (Cursor.IsAtEnd (t :: rest))
      ((partsAtTop .pipe 0 ts).mapM fun part => (constructor equals part : Reader Constructor))
      (∀ c ∈ ·, c.name.IsOf (t :: rest) ∧ c.span.IsOf (t :: rest)) := by
    apply Moves.mapM
    intro part hpart
    apply Moves.lift
    intro c hc
    exact constructor_isOf ((infix_of_mem_partsAtTop hpart).trans hts.isInfix) hc
  refine hconstructors.bind fun cs hcs => ?_
  refine since_moves_end.bind fun whole hwhole => .pure ?_
  have hown : ∀ n ∈ name :: parameters, n.IsOf (t :: rest) :=
    List.forall_mem_cons.2 ⟨hname, hparameters⟩
  have hnames : ∀ n ∈ name :: parameters ++ cs.map (·.name), n.IsOf (t :: rest) := by
    intro n hn
    rcases List.mem_append.1 hn with hn | hn
    · exact hown n hn
    · obtain ⟨c, hc, rfl⟩ := List.mem_map.1 hn
      exact (hcs c hc).1
  constructor
  case span => exact hwhole
  case names => exact hnames
  case parts =>
    intro s hs
    rcases List.mem_append.1 hs with hs | hs
    · obtain ⟨n, hn, rfl⟩ := List.mem_map.1 hs
      exact (hnames n hn).span
    · obtain ⟨c, hc, rfl⟩ := List.mem_map.1 hs
      exact (hcs c hc).2
  case body => nofun

/-! ## Ports and operators -/

theorem portDeclaration_moves :
    Moves (· = .start (t :: rest)) (Cursor.IsAtEnd (t :: rest)) portDeclaration
      fun d => (Declaration.port d).IsPlacedIn (t :: rest) := by
  unfold portDeclaration
  refine here_moves_start.bind fun first hfirst => ?_
  rw [hfirst]
  refine (expectKeyword_moves _ _).bind fun _ _ => ?_
  refine declarationName_moves.bind fun name hname => ?_
  refine (expect_moves _ _).bind fun _ _ => ?_
  refine (typeAnnotation_moves _).bind fun annotation _ => ?_
  refine since_moves_end.bind fun whole hwhole => .pure ?_
  apply isPlacedIn_of_names
  · exact hwhole
  · exact List.forall_mem_singleton.2 hname
  · exact List.append_nil _
  · nofun

/-- What a token stands for, with the place of the token. -/
theorem reading_moves {α : Type} (what blame : Expected) (meaning : TokenKind → Option α) :
    Moves (Cursor.IsIn tokens) (Cursor.IsIn tokens) (reading what meaning blame)
      fun l => ∃ t ∈ tokens, meaning t.kind = some l.node ∧ t.span = l.span := by
  unfold reading
  refine (next_moves _).bind fun t ht => ?_
  split
  · next value hvalue => exact .pure ⟨t, ht, hvalue, rfl⟩
  · exact .failAt _ _

theorem text_of_operatorText? {kind : TokenKind} {symbols : String}
    (h : operatorText? kind = some symbols) : kind.isVerbatim = true ∧ kind.text = symbols := by
  cases kind with
  | operator s =>
    cases h
    exact ⟨rfl, rfl⟩
  | pipe =>
    cases h
    exact ⟨rfl, rfl⟩
  | _ => cases h

theorem operatorDeclaration_moves :
    Moves (· = .start (t :: rest)) (Cursor.IsAtEnd (t :: rest)) operatorDeclaration
      fun d => (Declaration.operator d).IsPlacedIn (t :: rest) := by
  unfold operatorDeclaration
  refine here_moves_start.bind fun first hfirst => ?_
  rw [hfirst]
  refine (expectKeyword_moves _ _).bind fun _ _ => ?_
  refine (reading_moves _ _ _).bind fun associativity _ => ?_
  refine (reading_moves _ _ _).bind fun precedence _ => ?_
  refine (expect_moves _ _).bind fun _ _ => ?_
  refine (reading_moves _ _ _).bind fun operator hoperator => ?_
  refine (expect_moves _ _).bind fun _ _ => ?_
  refine (expect_moves _ _).bind fun _ _ => ?_
  refine declarationName_moves.bind fun function hfunction => ?_
  refine (expectEnd_moves _).bind fun _ _ => ?_
  refine since_moves_end.bind fun whole hwhole => .pure ?_
  have hname : operator.IsOf (t :: rest) := by
    obtain ⟨symbol, hsymbol, hmeaning, hspan⟩ := hoperator
    obtain ⟨hverbatim, htext⟩ := text_of_operatorText? hmeaning
    exact ⟨symbol, hsymbol, hverbatim, htext, hspan⟩
  apply isPlacedIn_of_names
  · exact hwhole
  · exact List.forall_mem_cons.2 ⟨hname, List.forall_mem_singleton.2 hfunction⟩
  · exact List.append_nil _
  · nofun

/-! ## Definitions -/

theorem ne_nil_of_checkBody {owner : String} {before : Span} {ts : List Token}
    (h : checkBody owner before ts = .ok ()) : ts ≠ [] := by
  rintro rfl
  cases h

/-- **What a definition is taken apart into**: what stands before the first sign `=` outside
    all groups, and a body behind it that passes its check. -/
theorem argumentsAndBody_eq_ok_iff {owner : Name} {ts : List Token}
    {args : List (Located String)} {body : Span} :
    argumentsAndBody owner ts = .ok (args, body) ↔
      balanced ts = .ok () ∧ ∃ before equals rest,
        splitAtTop? .equals 0 ts = some (before, equals, rest) ∧
        checkBody owner.node equals.span rest = .ok () ∧
        args = ((atoms before).map fun a => ⟨render a.tokens, a.span⟩) ∧ body = spanOf rest := by
  unfold argumentsAndBody
  cases balanced ts with
  | error e =>
    constructor
    · intro h
      cases h
    · rintro ⟨h, -⟩
      cases h
  | ok u =>
    cases splitAtTop? .equals 0 ts with
    | none =>
      constructor
      · intro h
        cases h
      · rintro ⟨-, before, equals, rest, h, -⟩
        cases h
    | some parts =>
      obtain ⟨before, equals, rest⟩ := parts
      constructor
      · intro h
        cases hcheck : checkBody owner.node equals.span rest with
        | error e =>
          simp only [hcheck] at h
          cases h
        | ok u =>
          simp only [hcheck] at h
          cases h
          exact ⟨rfl, before, equals, rest, rfl, hcheck, rfl, rfl⟩
      · rintro ⟨-, before, equals, rest, ⟨⟩, hcheck, rfl, rfl⟩
        simp only [hcheck]
        rfl

/-- What the places in the arguments and the body of a definition are like. -/
theorem argumentsAndBody_isOf {owner : Name} {ts : List Token} {args : List (Located String)}
    {body : Span} (h : argumentsAndBody owner ts = .ok (args, body)) :
    (∀ a ∈ args, a.span.IsOf ts) ∧
      ∃ part, part ≠ [] ∧ part <:+ ts ∧ body = spanOf part := by
  obtain ⟨-, before, equals, rest, hsplit, hcheck, rfl, rfl⟩ := argumentsAndBody_eq_ok_iff.1 h
  have hts := splitAtTop?_eq hsplit
  refine ⟨?_, rest, ne_nil_of_checkBody hcheck, ?_, rfl⟩
  · intro a ha
    obtain ⟨atom, hatom, rfl⟩ := List.mem_map.1 ha
    apply Atom.span_isOf
    rw [hts]
    exact (infix_of_mem_atoms hatom).trans (List.prefix_append _ _).isInfix
  · rw [hts]
    exact (List.suffix_cons _ _).trans (List.suffix_append _ _)

theorem valueDeclaration_moves (doc : Option (Located String)) (sig : Option Signature) :
    Moves (· = .start (t :: rest)) (Cursor.IsAtEnd (t :: rest)) (valueDeclaration doc sig)
      fun d => (Declaration.value d).IsPlacedIn (t :: rest) := by
  unfold valueDeclaration
  refine here_moves_start.bind fun first hfirst => ?_
  rw [hfirst]
  refine declarationName_moves.bind fun name hname => ?_
  refine remaining_moves.bind fun ts hts => ?_
  refine (Moves.lift fun parts hparts => argumentsAndBody_isOf hparts).bind fun parts hparts => ?_
  obtain ⟨hargs, part, hne, hpart, hbody⟩ := hparts
  refine since_moves_end.bind fun whole hwhole => .pure ?_
  constructor
  case span => exact hwhole
  case names => exact List.forall_mem_singleton.2 hname
  case parts =>
    intro s hs
    change s ∈ name.span :: (parts.1.map (·.span) ++ [parts.2]) at hs
    rcases List.mem_cons.1 hs with rfl | hs
    · exact hname.span
    · rcases List.mem_append.1 hs with hs | hs
      · obtain ⟨a, ha, rfl⟩ := List.mem_map.1 hs
        exact (hargs a ha).mono hts.isInfix
      · rw [List.mem_singleton.1 hs]
        exact ⟨part, hne, (hpart.trans hts).isInfix, hbody⟩
  case body =>
    rintro v ⟨⟩
    exact ⟨part, hne, hpart.trans hts, hbody⟩

/-- **The places in a declaration** are those of the tokens of its item. -/
theorem declaration_moves (kind : ModuleKind) (doc : Option (Located String))
    (sig : Option Signature) :
    Moves (· = .start (t :: rest)) (Cursor.IsAtEnd (t :: rest)) (declaration kind doc sig)
      (·.IsPlacedIn (t :: rest)) := by
  unfold declaration
  refine Moves.get.bind fun c hc => ?_
  split
  · exact .failAt _ _
  · split
    · refine peekSecond?_moves.bind fun second _ => ?_
      split
      · exact (aliasDeclaration_moves doc).bind fun d hd => .pure hd
      · exact (typeDeclaration_moves doc).bind fun d hd => .pure hd
    · split
      · exact portDeclaration_moves.bind fun d hd => .pure hd
      · exact .failAt _ _
    · exact operatorDeclaration_moves.bind fun d hd => .pure hd
    · exact (valueDeclaration_moves doc sig).bind fun d hd => .pure hd
    · exact .failAt _ _
    · exact .failAt _ _

end Reader

end ElmIntake
