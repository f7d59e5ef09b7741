import ElmIntake.Proofs.Syntax.Outline
import ElmIntake.Proofs.Syntax.Derivations

/-! # Items of an outline are read back

    Every item that an outline is printed as gives, to the reader for its kind, the
    tree that the outline has for it. -/

namespace ElmIntake

open Outline Printable

namespace Reader

variable {ks : List TokenKind}

/-! ## Headers and imports

    They have a form, so the reader takes them. -/

/-- The form of an item of an exposing list. -/
def formOfName : ExposedName → ExposedForm
  | .value name => .value ⟨name.1, isDotted_of_isLowerWord name.2⟩
  | .operator symbols => .operator symbols.1
  | .type name isOpen => .type ⟨name.1, isDotted_of_isUpperWord name.2⟩ isOpen

theorem kinds_formOfName (name : ExposedName) : (formOfName name).kinds = allKinds name.parts := by
  rcases name with _ | _ | ⟨_, _ | _⟩
  all_goals rfl

theorem tree_formOfName (name : ExposedName) : (formOfName name).tree = name.tree := by
  cases name <;> rfl

/-- The form of an exposing list. -/
def formOfExposed : Exposed → ExposingForm
  | .all => .all
  | .listed first others => .listed (formOfName first) (others.map formOfName)

theorem kinds_formOfExposed (exposed : Exposed) :
    (formOfExposed exposed).kinds = allKinds exposed.parts := by
  cases exposed with
  | all => rfl
  | listed first others =>
    simp [formOfExposed, ExposingForm.kinds, ExposingForm.otherKinds, Exposed.parts, allKinds,
      kinds_formOfName, List.flatMap_assoc, List.flatMap_map]

theorem tree_formOfExposed (exposed : Exposed) : (formOfExposed exposed).tree = exposed.tree := by
  cases exposed with
  | all => rfl
  | listed first others =>
    simp [formOfExposed, ExposingForm.tree, Exposed.tree, tree_formOfName, Located.nowhere]

/-- The name of a module, with its segments. -/
def segmentedName (name : Segments) : SegmentedName where
  segments := name.1
  nonempty := by
    obtain ⟨word, words, hname, -⟩ := exists_of_areSegments name.2
    rw [hname]
    exact List.cons_ne_nil _ _
  plain := by
    obtain ⟨word, words, hname, hword, hwords⟩ := exists_of_areSegments name.2
    rw [hname]
    exact List.forall_mem_cons.2 ⟨isDotted_of_isUpperWord hword,
      fun segment hsegment => isDotted_of_isUpperWord (hwords segment hsegment)⟩

theorem header_yields (o : Outline) : Yields header (allKinds o.headerParts) [] o.headerTree := by
  let f : HeaderForm := .plain o.isPort (segmentedName o.name) (formOfExposed o.exposed)
  have hkinds : f.kinds = allKinds o.headerParts := by
    show (if o.isPort then [.keyword .portWord] else []) ++ .keyword .moduleWord ::
      .upperName _ :: .keyword .exposingWord :: (formOfExposed o.exposed).kinds = _
    rw [kinds_formOfExposed]
    unfold Outline.headerParts
    cases o.isPort <;> rfl
  have htree : f.tree = o.headerTree := by
    show ModuleHeader.mk _ _ (formOfExposed o.exposed).tree _ _ = _
    rw [tree_formOfExposed]
    rfl
  rw [← hkinds, ← htree]
  exact headerForm_yields f

theorem import_yields (i : Outline.Import) : Yields import_ (allKinds i.parts) [] i.tree := by
  let f : ImportForm := ⟨segmentedName i.name,
    i.asName.map fun name => ⟨name.1, isDotted_of_isUpperWord name.2⟩, i.exposed.map formOfExposed⟩
  have hkinds : f.kinds = allKinds i.parts := by
    obtain ⟨name, asName, exposed⟩ := i
    cases asName <;> cases exposed <;>
      simp [f, ImportForm.kinds, ImportForm.aliasKinds, ImportForm.exposingKinds,
        Outline.Import.parts, allKinds, kinds_formOfExposed, segmentedName, SegmentedName.text]
  have htree : f.tree = i.tree := by
    obtain ⟨name, asName, exposed⟩ := i
    cases asName <;> cases exposed <;>
      simp [f, ImportForm.tree, Outline.Import.tree, tree_formOfExposed, segmentedName,
        Located.nowhere]
  rw [← hkinds, ← htree]
  exact importForm_yields f

/-! ## Types -/

theorem checkType_bare (h : isType ks = true) (owner : String) (before : Span) :
    checkType owner before (bare ks) = .ok () := by
  unfold isType at h
  simp only [Bool.and_eq_true, Bool.not_eq_true', bne_iff_ne] at h
  obtain ⟨⟨⟨hne, hbalanced⟩, hequals⟩, hlast⟩ := h
  have hempty : (bare ks).isEmpty = false := by
    unfold bare
    rw [List.isEmpty_map, hne]
  have hfind : (bare ks).find? (·.kind == .equals) = none := by
    rw [List.find?_eq_none]
    intro t ht hkind
    obtain ⟨kind, hmem, rfl⟩ := List.mem_map.1 ht
    have hkind : kind = .equals := beq_iff_eq.1 hkind
    rw [hkind, ← List.contains_iff_mem, hequals] at hmem
    cases hmem
  unfold checkType
  rw [hempty, balanced_bare hbalanced, hfind]
  unfold bare
  rw [List.getLast?_map]
  cases hkind : ks.getLast? with
  | none => rfl
  | some kind =>
    rw [hkind] at hlast
    have harrow : kind ≠ .arrow := fun h => hlast (congrArg some h)
    show (if kind = .arrow then _ else _ : Except SyntaxError Unit) = _
    rw [if_neg harrow]
    rfl

theorem typeAnnotation_yields (typing : Fragment isType) (owner : String) :
    Yields ( typeAnnotation owner) typing.kinds [] typing.rendered := by
  refine behind_yields.bind ?_
  refine remaining_yields.bind ?_
  exact (Yields.lift (checkType_bare typing.isGood owner _)).bind .pure

theorem signature_yields (name : LowerWord) (typing : Fragment isType) :
    Yields signature (allKinds (Outline.Declaration.signatureParts name typing)) []
      (Outline.Declaration.signatureTree name typing) := by
  have hkinds : allKinds (Outline.Declaration.signatureParts name typing) =
      .lowerName name :: .colon :: typing.kinds := by
    simp [Outline.Declaration.signatureParts, allKinds]
  rw [hkinds]
  refine here_yields.bind ?_
  refine (declarationName_yields (isDotted_of_isLowerWord name.2)).bind ?_
  refine (expect_yields _).bind ?_
  refine (typeAnnotation_yields typing _).bind ?_
  exact since_yields.bind .pure

theorem portDeclaration_yields (name : LowerWord) (typing : Fragment isType) :
    Yields portDeclaration (allKinds (Outline.Declaration.port name typing).parts) []
      ⟨.nowhere name.1, typing.rendered, .dummy⟩ := by
  have hkinds : allKinds (Outline.Declaration.port name typing).parts =
      .keyword .portWord :: .lowerName name :: .colon :: typing.kinds := by
    simp [Outline.Declaration.parts, allKinds]
  rw [hkinds]
  refine here_yields.bind ?_
  refine (expectKeyword_yields _ _).bind ?_
  refine (declarationName_yields (isDotted_of_isLowerWord name.2)).bind ?_
  refine (expect_yields _).bind ?_
  refine (typeAnnotation_yields typing _).bind ?_
  exact since_yields.bind .pure

/-- The parameters of a type, up to the sign behind them. -/
theorem parameters_yields (parameters : List LowerWord) :
    Yields typeParameters (allKinds (parameters.map .lower) ++ .equals :: ks) (.equals :: ks)
      (parameters.map fun parameter => .nowhere parameter.1) := by
  have hkinds : allKinds (parameters.map .lower) = (parameters.map (·.1)).map .lowerName := by
    induction parameters with
    | nil => rfl
    | cons parameter parameters ih => exact congrArg (.lowerName parameter.1 :: ·) ih
  have hdotted : ∀ name ∈ parameters.map (·.1), isDotted name = false := by
    intro name hname
    obtain ⟨parameter, -, rfl⟩ := List.mem_map.1 hname
    exact isDotted_of_isLowerWord parameter.2
  have hnone : ∀ name, (.equals :: ks).head? ≠ some (.lowerName name) := nofun
  have hyields := typeParameters_yields hdotted hnone
  have hnames : (parameters.map (·.1)).map (fun name => (⟨name, .dummy⟩ : Name)) =
      parameters.map fun parameter => .nowhere parameter.1 := List.map_map
  rw [hnames] at hyields
  rw [hkinds]
  exact hyields

theorem aliasDeclaration_yields (name : UpperWord) (parameters : List LowerWord)
    (typing : Fragment isType) :
    Yields (aliasDeclaration none)
      (allKinds (Outline.Declaration.synonym name parameters typing).parts) []
      ⟨none, .nowhere name.1, parameters.map fun parameter => .nowhere parameter.1,
        typing.rendered, .dummy⟩ := by
  have hkinds : allKinds (Outline.Declaration.synonym name parameters typing).parts =
      .keyword .typeWord :: .keyword .aliasWord :: .upperName name ::
        (allKinds (parameters.map .lower) ++ .equals :: typing.kinds) := by
    simp [Outline.Declaration.parts, allKinds]
  rw [hkinds]
  refine here_yields.bind ?_
  refine (expectKeyword_yields _ _).bind ?_
  refine (expectKeyword_yields _ _).bind ?_
  refine (typeName_yields (isDotted_of_isUpperWord name.2)).bind ?_
  refine (parameters_yields parameters).bind ?_
  refine (expect_yields _).bind ?_
  refine (typeAnnotation_yields typing _).bind ?_
  exact since_yields.bind .pure

/-! ## Constructors -/

section

variable {good : List TokenKind → Bool}

theorem allKinds_fragments (fragments : List (Fragment good)) :
    allKinds (fragments.map (·.toPrintable)) = (fragments.map (·.kinds)).flatten := by
  rw [allKinds, List.flatMap_map]
  rfl

theorem isBalanced_fragments {outside : TokenKind → Bool}
    (hgood : ∀ ks, good ks = true → isBalanced outside ks = true)
    (fragments : List (Fragment good)) :
    ∀ ks ∈ fragments.map (·.kinds), isBalanced outside ks = true := by
  intro ks hks
  obtain ⟨fragment, -, rfl⟩ := List.mem_map.1 hks
  exact hgood _ fragment.isGood

end

theorem span_bare (kind : TokenKind) (ks : List TokenKind) :
    (Atom.mk ⟨kind, .dummy⟩ (bare ks)).span = .dummy := by
  have hlast : ((bare ks).getLast?.map (·.span)).getD .dummy = .dummy := by
    unfold bare
    rw [List.getLast?_map]
    cases ks.getLast? <;> rfl
  unfold Atom.span
  rw [hlast]
  rfl

theorem allKinds_constructor (c : Outline.Constructor) :
    allKinds c.parts = .upperName c.name.1 :: (c.arguments.map (·.kinds)).flatten := by
  show .upperName c.name.1 :: allKinds (c.arguments.map (·.toPrintable)) = _
  rw [allKinds_fragments]

theorem isBalanced_arguments (c : Outline.Constructor) :
    ∀ ks ∈ c.arguments.map (·.kinds), isBalanced (· != .pipe) ks = true :=
  isBalanced_fragments (fun _ h => h) c.arguments

theorem isBalanced_constructor (c : Outline.Constructor) :
    isBalanced (· != .pipe) (allKinds c.parts) = true := by
  rw [allKinds_constructor]
  exact isBalanced_plain rfl rfl rfl (isBalanced_flatten (isBalanced_arguments c))

theorem constructor_bare (c : Outline.Constructor) (before : Span) :
    constructor before (bare (allKinds c.parts)) = .ok c.tree := by
  have hatoms : (atoms (bare (c.arguments.map (·.kinds)).flatten)).map (render ·.tokens) =
      c.arguments.flatMap (·.renderedAtoms) := by
    rw [atoms_bare_flatten (isBalanced_arguments c), List.map_flatMap, List.flatMap_map]
    rfl
  rw [allKinds_constructor, bare_cons]
  unfold constructor
  dsimp only
  rw [isDotted_of_isUpperWord c.name.2, hatoms, span_bare]
  rfl

theorem constructors_yields (constructors : List Outline.Constructor) (before : Span) :
    Yields ((constructors.map fun c => bare (allKinds c.parts)).mapM
      (liftM <| constructor before ·)) ks ks (constructors.map Outline.Constructor.tree) := by
  induction constructors with
  | nil => exact .pure
  | cons c constructors ih =>
    rw [List.map_cons, List.mapM_cons]
    refine (Yields.lift (constructor_bare c before)).bind ?_
    exact ih.bind .pure

theorem typeDeclaration_yields (name : UpperWord) (parameters : List LowerWord)
    (first : Outline.Constructor) (others : List Outline.Constructor) :
    Yields (typeDeclaration none)
      (allKinds (Outline.Declaration.type name parameters first others).parts) []
      ⟨none, .nowhere name.1, parameters.map fun parameter => .nowhere parameter.1,
        (first :: others).map Outline.Constructor.tree, .dummy⟩ := by
  have hkinds : allKinds (Outline.Declaration.type name parameters first others).parts =
      .keyword .typeWord :: .upperName name.1 :: (allKinds (parameters.map .lower) ++
        .equals :: (allKinds first.parts ++
          (others.map fun c => allKinds c.parts).flatMap (.pipe :: ·))) := by
    simp [Outline.Declaration.parts, allKinds, List.flatMap_assoc, List.flatMap_map]
  -- No constructor has a bar outside its groups, so the bars tell them apart.
  have hparts : ∀ ks ∈ allKinds first.parts :: others.map fun c => allKinds c.parts,
      isBalanced (· != .pipe) ks = true := by
    intro ks hks
    have hmem : ks ∈ (first :: others).map fun c => allKinds c.parts := hks
    obtain ⟨c, -, rfl⟩ := List.mem_map.1 hmem
    exact isBalanced_constructor c
  have hbalanced : isBalanced (fun _ => true) (allKinds first.parts ++
      (others.map fun c => allKinds c.parts).flatMap (.pipe :: ·)) = true := by
    have hweak : ∀ ks ∈ allKinds first.parts :: others.map fun c => allKinds c.parts,
        isBalanced (fun _ => true) ks = true :=
      fun ks hks => isBalanced_weaken (hparts ks hks) fun _ _ => rfl
    obtain ⟨hfirst, hothers⟩ := List.forall_mem_cons.1 hweak
    refine isBalanced_append hfirst (isBalanced_flatten fun ks hks => ?_)
    obtain ⟨part, hpart, rfl⟩ := List.mem_map.1 hks
    exact isBalanced_plain rfl rfl rfl (hothers part hpart)
  rw [hkinds]
  refine here_yields.bind ?_
  refine (expectKeyword_yields _ _).bind ?_
  refine (typeName_yields (isDotted_of_isUpperWord name.2)).bind ?_
  refine (parameters_yields parameters).bind ?_
  refine (expect_yields _).bind ?_
  refine remaining_yields.bind ?_
  refine (Yields.lift (balanced_bare hbalanced)).bind ?_
  rw [partsAtTop_bare hparts rfl rfl, List.map_map]
  refine (constructors_yields (first :: others) _).bind ?_
  exact since_yields.bind .pure

/-! ## Operators -/

theorem reading_yields {α : Type} {what blame : Expected} {meaning : TokenKind → Option α}
    {kind : TokenKind} {a : α} (h : meaning kind = some a) :
    Yields (reading what meaning blame) (kind :: ks) ks (.nowhere a) := by
  refine (next_yields _).bind ?_
  dsimp only
  rw [h]
  exact .pure

theorem precedence?_toString (precedence : Fin 10) :
    precedence? (.number (toString precedence)) = some precedence.val.toUInt8 := by
  revert precedence
  decide +kernel

theorem operatorDeclaration_yields (associativity : Associativity) (precedence : Fin 10)
    (symbols : InfixWord) (function : LowerWord) :
    Yields operatorDeclaration
      (allKinds (Outline.Declaration.operator associativity precedence symbols function).parts) []
      ⟨associativity, precedence.val.toUInt8, .nowhere symbols.1, .nowhere function.1, .dummy⟩ := by
  have hassociativity : associativity? (.lowerName (associativityWord associativity).1) =
      some associativity := by
    cases associativity <;> rfl
  refine here_yields.bind ?_
  refine (expectKeyword_yields _ _).bind ?_
  refine (reading_yields hassociativity).bind ?_
  refine (reading_yields (precedence?_toString precedence)).bind ?_
  refine (expect_yields _).bind ?_
  refine (reading_yields (operatorText?_symbolKind symbols.2)).bind ?_
  refine (expect_yields _).bind ?_
  refine (expect_yields _).bind ?_
  refine (declarationName_yields (isDotted_of_isLowerWord function.2)).bind ?_
  refine (expectEnd_yields _).bind ?_
  exact since_yields.bind .pure

/-! ## Definitions -/

theorem countKeyword_bare (word : Keyword) (ks : List TokenKind) :
    countKeyword word (bare ks) = ks.count (.keyword word) := by
  unfold countKeyword bare
  rw [List.countP_map]
  rfl

theorem checkBody_bare (h : isBody ks = true) (owner : String) (before : Span) :
    checkBody owner before (bare ks) = .ok () := by
  unfold isBody at h
  simp only [Bool.and_eq_true, beq_iff_eq] at h
  obtain ⟨⟨⟨⟨⟨hlast, -⟩, hthen⟩, helse⟩, hlet⟩, hcase⟩ := h
  cases hkind : ks.getLast? with
  | none =>
    rw [hkind] at hlast
    cases hlast
  | some kind =>
    rw [hkind, Option.any_some, Bool.not_eq_true'] at hlast
    have hend : (bare ks).getLast? = some ⟨kind, .dummy⟩ := by
      unfold bare
      rw [List.getLast?_map, hkind]
      rfl
    have hif : ¬ (ks.count (.keyword .ifWord) ≠ ks.count (.keyword .thenWord) ∨
        ks.count (.keyword .ifWord) ≠ ks.count (.keyword .elseWord)) := by
      rw [not_or, not_not, not_not]
      exact ⟨hthen, helse⟩
    unfold checkBody
    simp only [hend, countKeyword_bare, hlast, if_neg hif, if_neg (not_not.2 hlet),
      if_neg (not_not.2 hcase)]
    rfl

theorem exists_atoms_of_isArgument (h : isArgument ks = true) :
    ∃ atom, atoms (bare ks) = [atom] ∧ atom.tokens = bare ks := by
  unfold isArgument at h
  split at h
  · exact ⟨_, rfl, rfl⟩
  · exact ⟨_, rfl, rfl⟩
  · exact ⟨_, rfl, rfl⟩
  · exact exists_atoms_of_isGroup h

theorem isBalanced_of_isArgument (h : isArgument ks = true) :
    isBalanced (· != .equals) ks = true := by
  unfold isArgument at h
  split at h
  · rfl
  · rfl
  · rfl
  · exact isBalanced_of_isGroup h

theorem span_of_tokens_bare {atom : Atom} (h : atom.tokens = bare ks) : atom.span = .dummy := by
  obtain ⟨first, rest⟩ := atom
  cases ks with
  | nil => cases h
  | cons kind ks =>
    obtain ⟨rfl, rfl⟩ := List.cons.inj h
    exact span_bare kind ks

/-- The arguments of a definition, one atom each. -/
theorem located_atoms (arguments : List (Fragment isArgument)) :
    (atoms (bare (allKinds (arguments.map (·.toPrintable))))).map
        (fun a => (⟨render a.tokens, a.span⟩ : Located String)) =
      arguments.map fun argument => .nowhere argument.rendered := by
  have hbalanced := isBalanced_fragments (fun _ => isBalanced_of_isArgument) arguments
  rw [allKinds_fragments, atoms_bare_flatten hbalanced, List.map_flatMap, List.flatMap_map,
    List.map_eq_flatMap]
  congr 1
  funext argument
  obtain ⟨atom, hatom, htokens⟩ := exists_atoms_of_isArgument argument.isGood
  rw [hatom, List.map_singleton, htokens, span_of_tokens_bare htokens]
  rfl

theorem argumentsAndBody_bare (owner : Name) (arguments : List (Fragment isArgument))
    (body : Fragment isBody) :
    argumentsAndBody owner
      (bare (allKinds (arguments.map (·.toPrintable)) ++ .equals :: body.kinds)) =
      .ok (arguments.map fun argument => .nowhere argument.rendered, .dummy) := by
  -- No argument has a sign = outside its groups, so the first one is that of the definition.
  have harguments :
      isBalanced (· != .equals) (allKinds (arguments.map (·.toPrintable))) = true := by
    rw [allKinds_fragments]
    exact isBalanced_flatten (isBalanced_fragments (fun _ => isBalanced_of_isArgument) arguments)
  have hbody : isBalanced (fun _ => true) body.kinds = true := by
    have hgood := body.isGood
    unfold isBody at hgood
    simp only [Bool.and_eq_true] at hgood
    exact hgood.1.1.1.1.2
  have hbalanced : isBalanced (fun _ => true)
      (allKinds (arguments.map (·.toPrintable)) ++ .equals :: body.kinds) = true :=
    isBalanced_append (isBalanced_weaken harguments fun _ _ => rfl)
      (isBalanced_plain rfl rfl rfl hbody)
  have hspan : spanOf (bare body.kinds) = .dummy := by
    cases body.kinds with
    | nil => rfl
    | cons kind ks => exact span_bare kind ks
  have hsplit := splitAtTop?_bare harguments rfl rfl (bare body.kinds)
  rw [List.length_nil] at hsplit
  unfold argumentsAndBody
  rw [balanced_bare hbalanced, bare_append, bare_cons, hsplit]
  show (checkBody _ _ (bare body.kinds) >>= fun _ => _) = _
  rw [checkBody_bare body.isGood]
  show Except.ok (_, _) = _
  rw [located_atoms, hspan]

theorem valueDeclaration_yields (signature : Option Signature)
    (typing : Option (Fragment isType)) (name : LowerWord)
    (arguments : List (Fragment isArgument)) (body : Fragment isBody) :
    Yields (valueDeclaration none signature)
      (allKinds (Outline.Declaration.value typing name arguments body).parts) []
      ⟨none, signature, .nowhere name.1,
        arguments.map fun argument => .nowhere argument.rendered, .dummy, .dummy⟩ := by
  have hkinds : allKinds (Outline.Declaration.value typing name arguments body).parts =
      .lowerName name.1 :: (allKinds (arguments.map (·.toPrintable)) ++ .equals :: body.kinds) := by
    simp [Outline.Declaration.parts, allKinds]
  rw [hkinds]
  refine here_yields.bind ?_
  refine (declarationName_yields (isDotted_of_isLowerWord name.2)).bind ?_
  refine remaining_yields.bind ?_
  refine (Yields.lift (argumentsAndBody_bare _ arguments body)).bind ?_
  exact since_yields.bind .pure

/-! ## Declarations -/

theorem declaration_yields (d : Outline.Declaration) {kind : ModuleKind}
    (hport : d.isPort = true → kind = .port) :
    Yields (declaration kind none d.signature?) (allKinds d.parts) [] d.tree := by
  cases d with
  | value typing name arguments body =>
    refine Yields.get.bind ?_
    exact (valueDeclaration_yields _ typing name arguments body).bind .pure
  | synonym name parameters typing =>
    refine Yields.get.bind ?_
    have hsecond : Yields peekSecond?
        (allKinds (Outline.Declaration.synonym name parameters typing).parts) _
        (some (.keyword .aliasWord)) := rfl
    refine hsecond.bind ?_
    rw [if_pos rfl]
    exact (aliasDeclaration_yields name parameters typing).bind .pure
  | type name parameters first others =>
    refine Yields.get.bind ?_
    have hsecond : Yields peekSecond?
        (allKinds (Outline.Declaration.type name parameters first others).parts) _
        (some (.upperName name.1)) := rfl
    refine hsecond.bind ?_
    rw [if_neg nofun]
    exact (typeDeclaration_yields name parameters first others).bind .pure
  | operator associativity precedence symbols function =>
    refine Yields.get.bind ?_
    exact (operatorDeclaration_yields associativity precedence symbols function).bind .pure
  | port name typing =>
    refine Yields.get.bind ?_
    rw [hport rfl]
    exact (portDeclaration_yields name typing).bind .pure

end Reader

end ElmIntake
