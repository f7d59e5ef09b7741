import ElmIntake.Proofs.Syntax.Alike

/-! # The grammar looks at kinds alone

    Every reader of the grammar, run on items of the same kinds of tokens, finds
    the same but for places. -/

namespace ElmIntake

theorem Located.node_eq_of_unplaced {α : Type} {l l' : Located α} (h : l.unplaced = l'.unplaced) :
    l.node = l'.node :=
  unplaced_eq_iff.1 h

namespace Reader

/-! ## Names -/

theorem upperName_alike (what : Expected) :
    Alike Located.unplaced (upperName what) (upperName what) := by
  refine peek?_alike.bind_same fun ahead => ?_
  split
  · exact (next_alike what).bind fun _ _ _ => .pure rfl
  · exact missing_alike what

theorem moduleName_alike (what : Expected) :
    Alike Located.unplaced (moduleName what) (moduleName what) := by
  refine (upperName_alike what).bind fun name name' hname => .pure ?_
  rw [Located.node_eq_of_unplaced hname]
  rfl

theorem typeName_alike : Alike Located.unplaced typeName typeName := by
  refine (upperName_alike _).bind fun name name' hname => ?_
  rw [Located.node_eq_of_unplaced hname]
  split
  · exact .failAt _ _ _
  · exact .pure hname

theorem declarationName_alike : Alike Located.unplaced declarationName declarationName := by
  refine peek?_alike.bind_same fun ahead => ?_
  split
  · split
    · exact fail_alike _
    · exact (next_alike _).bind fun _ _ _ => .pure rfl
  · exact missing_alike _

theorem leadingLowerNames_of_kinds {tokens tokens' : List Token}
    (h : kinds tokens = kinds tokens') :
    (leadingLowerNames tokens).map Located.unplaced =
      (leadingLowerNames tokens').map Located.unplaced := by
  induction tokens generalizing tokens' with
  | nil =>
    obtain rfl := eq_nil_of_kinds h
    rfl
  | cons t tokens ih =>
    obtain ⟨⟨kind', span'⟩, rest, rfl, hkind, hrest⟩ := exists_of_kinds_cons h
    obtain ⟨kind, span⟩ := t
    obtain rfl : kind = kind' := hkind
    cases kind with
    | lowerName name => simp [leadingLowerNames, ih hrest, Located.unplaced]
    | _ => rfl

theorem typeParameters_alike :
    Alike (List.map Located.unplaced) typeParameters typeParameters := by
  refine Alike.get.bind fun c c' hc => ?_
  have hnames := leadingLowerNames_of_kinds hc
  have hfind := congrArg (List.find? (isDotted ·.node)) hnames
  simp only [List.find?_map, Function.comp_def, Located.node_unplaced] at hfind
  have hlength := congrArg List.length hnames
  simp only [List.length_map] at hlength
  obtain ⟨hnone, hnone'⟩ | ⟨name, name', hname, hname', hdotted⟩ := cases_of_map_eq hfind
  · simp only [hnone, hnone']
    refine .modifyGet fun d d' hd => ⟨hnames, ?_⟩
    rw [hlength]
    exact kinds_skip hd _
  · simp only [hname, hname', Located.node_eq_of_unplaced hdotted]
    exact .failAt _ _ _

/-! ## Exposing lists -/

theorem atDots_alike : Alike id atDots atDots := peek?_alike.bind_same fun _ => .pure rfl

theorem dotsAndClose_alike : Alike noPlace dotsAndClose dotsAndClose :=
  (next_alike _).bind fun _ _ _ => expect_alike _ _

theorem exposedItem_alike : Alike Located.unplaced exposedItem exposedItem := by
  refine (next_alike _).bind fun t t' ht => ?_
  obtain ⟨kind, span⟩ := t
  obtain ⟨kind', span'⟩ := t'
  obtain rfl : kind = kind' := ht
  dsimp only
  -- The cases are those of the kind; in each one the places are blamed or kept, no more.
  split
  · split
    · exact .failAt _ _ _
    · exact .pure rfl
  · split
    · exact .failAt _ _ _
    · refine (accept_alike _).bind_same fun accepted => ?_
      split
      · refine atDots_alike.bind_same fun dots => ?_
        split
        · exact missing_alike _
        · exact dotsAndClose_alike.bind fun _ _ _ => (since_alike _ _).bind fun _ _ _ => .pure rfl
      · exact (since_alike _ _).bind fun _ _ _ => .pure rfl
  · refine (next_alike _).bind fun symbol symbol' hsymbol => ?_
    rw [hsymbol]
    split
    · exact (expect_alike _ _).bind fun _ _ _ => (since_alike _ _).bind fun _ _ _ => .pure rfl
    · exact .failAt _ _ _
  · exact .failAt _ _ _
  · exact .failAt _ _ _

theorem exposedItems_alike (fuel : Nat) :
    Alike (List.map Located.unplaced) (exposedItems fuel) (exposedItems fuel) := by
  induction fuel with
  | zero => exact missing_alike _
  | succ fuel ih =>
    refine exposedItem_alike.bind fun item item' hitem => ?_
    refine (accept_alike _).bind_same fun accepted => ?_
    split
    · refine ih.bind fun items items' hitems => .pure ?_
      rw [List.map_cons, List.map_cons, hitem, hitems]
    · refine (expect_alike _ _).bind fun _ _ _ => .pure ?_
      rw [List.map_cons, List.map_cons, hitem]

theorem exposing_alike : Alike Exposing.unplaced exposing exposing := by
  refine (expect_alike _ _).bind fun _ _ _ => atDots_alike.bind_same fun dots => ?_
  split
  · exact dotsAndClose_alike.bind fun _ _ _ => .pure rfl
  · refine Alike.get.bind fun c c' hc => ?_
    rw [length_of_kinds hc]
    exact (exposedItems_alike _).bind fun items items' hitems =>
      .pure (congrArg Exposing.listed hitems)

/-! ## Headers and imports -/

theorem closingBrace?_of_kinds {tokens tokens' : List Token} (h : kinds tokens = kinds tokens')
    (depth : Nat) : closingBrace? depth tokens = closingBrace? depth tokens' := by
  induction tokens generalizing tokens' depth with
  | nil =>
    obtain rfl := eq_nil_of_kinds h
    rfl
  | cons t tokens ih =>
    obtain ⟨t', rest, rfl, hkind, hrest⟩ := exists_of_kinds_cons h
    simp only [closingBrace?, hkind, ih hrest]

theorem settings_alike (opener opener' : Span) :
    Alike id (settings opener) (settings opener') := by
  refine Alike.get.bind fun c c' hc => ?_
  rw [closingBrace?_of_kinds hc]
  split
  · exact .modifyGet fun d d' hd => ⟨rfl, kinds_skip hd _⟩
  · exact .failAt _ _ _

theorem moduleKind_alike : Alike id moduleKind moduleKind := by
  refine (accept_alike _).bind_same fun port => ?_
  split
  · exact .pure rfl
  · refine (accept_alike _).bind_same fun effect => ?_
    split <;> exact .pure rfl

theorem header_alike : Alike ModuleHeader.unplaced header header := by
  refine here_alike.bind fun first first' _ => moduleKind_alike.bind_same fun kind => ?_
  refine (expectKeyword_alike _ _).bind_same fun _ => ?_
  refine (moduleName_alike _).bind fun name name' hname => ?_
  -- The settings of an effect module stand before the rest, which is read in both cases.
  have hrest : ∀ u : PUnit, Alike ModuleHeader.unplaced
      (do
        expectKeyword .exposingWord (.exposingAfter name.node.dotted)
        let exposed ← exposing
        expectEnd .header
        return ⟨kind, name, exposed, false, ← since first⟩)
      (do
        expectKeyword .exposingWord (.exposingAfter name'.node.dotted)
        let exposed ← exposing
        expectEnd .header
        return ⟨kind, name', exposed, false, ← since first'⟩) := by
    intro _
    rw [Located.node_eq_of_unplaced hname]
    refine (expectKeyword_alike _ _).bind_same fun _ => ?_
    refine exposing_alike.bind fun exposed exposed' hexposed => ?_
    refine (expectEnd_alike _).bind_same fun _ => (since_alike _ _).bind fun _ _ _ => .pure ?_
    simp only [ModuleHeader.unplaced, hname, hexposed]
  dsimp only
  split
  · refine (expectKeyword_alike _ _).bind_same fun _ => ?_
    refine (expect_alike _ _).bind fun opener opener' _ => ?_
    exact (settings_alike _ _).bind_same hrest
  · exact hrest ()

theorem importAlias_alike : Alike (Option.map Located.unplaced) importAlias importAlias := by
  refine (accept_alike _).bind_same fun accepted => ?_
  split
  · refine (upperName_alike _).bind fun name name' hname => ?_
    rw [Located.node_eq_of_unplaced hname]
    split
    · exact .failAt _ _ _
    · exact .pure (congrArg some hname)
  · exact .pure rfl

theorem importExposing_alike :
    Alike (Option.map Exposing.unplaced) importExposing importExposing := by
  refine (accept_alike _).bind_same fun accepted => ?_
  split
  · exact exposing_alike.bind fun _ _ hexposed => .pure (congrArg some hexposed)
  · exact .pure rfl

theorem import_alike : Alike Import.unplaced import_ import_ := by
  refine here_alike.bind fun first first' _ => (expectKeyword_alike _ _).bind_same fun _ => ?_
  refine (moduleName_alike _).bind fun name name' hname => ?_
  refine importAlias_alike.bind fun asName asName' hasName => ?_
  refine importExposing_alike.bind fun exposed exposed' hexposed => ?_
  refine (expectEnd_alike _).bind_same fun _ => (since_alike _ _).bind fun _ _ _ => .pure ?_
  simp only [Import.unplaced, hname, hasName, hexposed]

/-! ## Types -/

/-- The places of brackets that are still open are only blamed. -/
theorem checkBalanced_alike {unclosed unclosed' : List (Bracket × Span)}
    {tokens tokens' : List Token} (hunclosed : unclosed.map Prod.fst = unclosed'.map Prod.fst)
    (h : kinds tokens = kinds tokens') :
    seen id (checkBalanced unclosed tokens) = seen id (checkBalanced unclosed' tokens') := by
  -- The open brackets grow and shrink side by side, so the induction is over all of them.
  induction tokens generalizing tokens' unclosed unclosed' with
  | nil =>
    obtain rfl := eq_nil_of_kinds h
    cases unclosed <;> cases unclosed' <;> simp_all [checkBalanced, seen]
  | cons t tokens ih =>
    obtain ⟨⟨kind', span'⟩, rest, rfl, hkind, hrest⟩ := exists_of_kinds_cons h
    obtain ⟨kind, span⟩ := t
    obtain rfl : kind = kind' := hkind
    cases kind with
    | opening bracket =>
      have hopen : ((bracket, span) :: unclosed).map Prod.fst =
          ((bracket, span') :: unclosed').map Prod.fst := congrArg (bracket :: ·) hunclosed
      have hstep := ih hopen hrest
      exact hstep
    | closing bracket =>
      cases unclosed with
      | nil =>
        obtain rfl := List.map_eq_nil_iff.1 hunclosed.symm
        rfl
      | cons opener outer =>
        cases unclosed' with
        | nil => cases hunclosed
        | cons opener' outer' =>
          obtain ⟨hopener, houter⟩ := List.cons.inj hunclosed
          simp only [checkBalanced, hopener]
          split
          · exact ih houter hrest
          · rfl
    | _ =>
      have hstep := ih hunclosed hrest
      exact hstep

theorem balanced_alike {tokens tokens' : List Token} (h : kinds tokens = kinds tokens') :
    seen id (balanced tokens) = seen id (balanced tokens') :=
  checkBalanced_alike rfl h

theorem checkType_alike (owner : String) (before before' : Span) {tokens tokens' : List Token}
    (h : kinds tokens = kinds tokens') :
    seen id (checkType owner before tokens) = seen id (checkType owner before' tokens') := by
  have hempty : tokens.isEmpty = tokens'.isEmpty := by
    cases tokens <;> cases tokens' <;> first | rfl | cases h
  unfold checkType
  by_cases hnone : tokens'.isEmpty = true
  · rw [hempty, if_pos hnone, if_pos hnone]
    rfl
  · rw [hempty, if_neg hnone, if_neg hnone]
    refine seen_bind (balanced_alike h) fun _ _ _ => ?_
    obtain ⟨hnone, hnone'⟩ | ⟨bad, bad', hbad, hbad', -⟩ :=
      cases_of_map_eq (find?_of_kinds h (· == .equals))
    · rw [hnone, hnone']
      obtain ⟨hnone, hnone'⟩ | ⟨last, last', hlast, hlast', hkind⟩ :=
        cases_of_map_eq (getLast?_of_kinds h)
      · rw [hnone, hnone']
      · simp only [hlast, hlast', hkind]
        split <;> rfl
    · rw [hbad, hbad']
      rfl

theorem typeAnnotation_alike (owner : String) :
    Alike id ( typeAnnotation owner) ( typeAnnotation owner) := by
  refine behind_alike.bind fun before before' _ => remaining_alike.bind fun tokens tokens' h => ?_
  refine (Alike.lift (checkType_alike owner before before' h)).bind_same fun _ => .pure ?_
  exact render_of_kinds h

theorem signature_alike : Alike Signature.unplaced signature signature := by
  refine here_alike.bind fun first first' _ => declarationName_alike.bind fun name name' hname => ?_
  refine (expect_alike _ _).bind fun _ _ _ => ?_
  rw [Located.node_eq_of_unplaced hname]
  refine (typeAnnotation_alike _).bind_same fun annotation => ?_
  refine (since_alike _ _).bind fun _ _ _ => .pure ?_
  simp only [Signature.unplaced, hname]

section

variable {doc doc' : Option (Located String)}

theorem aliasDeclaration_alike (hdoc : doc.map Located.unplaced = doc'.map Located.unplaced) :
    Alike AliasDeclaration.unplaced (aliasDeclaration doc) (aliasDeclaration doc') := by
  refine here_alike.bind fun first first' _ => (expectKeyword_alike _ _).bind_same fun _ => ?_
  refine (expectKeyword_alike _ _).bind_same fun _ => ?_
  refine typeName_alike.bind fun name name' hname => ?_
  refine typeParameters_alike.bind fun parameters parameters' hparameters => ?_
  rw [Located.node_eq_of_unplaced hname]
  refine (expect_alike _ _).bind fun _ _ _ => ?_
  refine (typeAnnotation_alike _).bind_same fun annotation => ?_
  refine (since_alike _ _).bind fun _ _ _ => .pure ?_
  simp only [AliasDeclaration.unplaced, hdoc, hname, hparameters]

theorem constructor_alike (before before' : Span) {tokens tokens' : List Token}
    (h : kinds tokens = kinds tokens') :
    seen Constructor.unplaced (constructor before tokens) =
      seen Constructor.unplaced (constructor before' tokens') := by
  cases tokens with
  | nil =>
    obtain rfl := eq_nil_of_kinds h
    rfl
  | cons t tokens =>
    obtain ⟨t', rest, rfl, hkind, hrest⟩ := exists_of_kinds_cons h
    unfold constructor
    simp only [Token.text, hkind, renderAtoms_of_kinds hrest]
    split
    · split <;> rfl
    · rfl

theorem constructors_alike (before before' : Span) {parts parts' : List (List Token)}
    (h : parts.map kinds = parts'.map kinds) :
    Alike (List.map Constructor.unplaced) (parts.mapM (liftM <| constructor before ·))
      (parts'.mapM (liftM <| constructor before' ·)) := by
  induction parts generalizing parts' with
  | nil =>
    obtain rfl := List.map_eq_nil_iff.1 h.symm
    exact .pure rfl
  | cons part parts ih =>
    cases parts' with
    | nil => cases h
    | cons part' parts' =>
      obtain ⟨hpart, hparts⟩ := List.cons.inj h
      rw [List.mapM_cons, List.mapM_cons]
      refine (Alike.lift (constructor_alike before before' hpart)).bind fun c c' hc => ?_
      refine (ih hparts).bind fun cs cs' hcs => .pure ?_
      rw [List.map_cons, List.map_cons, hc, hcs]

theorem typeDeclaration_alike (hdoc : doc.map Located.unplaced = doc'.map Located.unplaced) :
    Alike TypeDeclaration.unplaced (typeDeclaration doc) (typeDeclaration doc') := by
  refine here_alike.bind fun first first' _ => (expectKeyword_alike _ _).bind_same fun _ => ?_
  refine typeName_alike.bind fun name name' hname => ?_
  refine typeParameters_alike.bind fun parameters parameters' hparameters => ?_
  rw [Located.node_eq_of_unplaced hname]
  refine (expect_alike _ _).bind fun equals equals' _ => ?_
  refine remaining_alike.bind fun tokens tokens' htokens => ?_
  refine (Alike.lift (balanced_alike htokens)).bind_same fun _ => ?_
  -- The bars part both lists in the same places.
  have hparts := partsAtTop_of_kinds .pipe 0 htokens
  refine (constructors_alike equals equals' hparts).bind fun cs cs' hcs => ?_
  refine (since_alike _ _).bind fun _ _ _ => .pure ?_
  simp only [TypeDeclaration.unplaced, hdoc, hname, hparameters, hcs]

end

/-! ## Ports and operators -/

theorem portDeclaration_alike : Alike PortDeclaration.unplaced portDeclaration portDeclaration := by
  refine here_alike.bind fun first first' _ => (expectKeyword_alike _ _).bind_same fun _ => ?_
  refine declarationName_alike.bind fun name name' hname => ?_
  rw [Located.node_eq_of_unplaced hname]
  refine (expect_alike _ _).bind fun _ _ _ => ?_
  refine (typeAnnotation_alike _).bind_same fun annotation => ?_
  refine (since_alike _ _).bind fun _ _ _ => .pure ?_
  simp only [PortDeclaration.unplaced, hname]

theorem reading_alike {α : Type} (what : Expected) (meaning : TokenKind → Option α)
    (blame : Expected) :
    Alike Located.unplaced (reading what meaning blame) (reading what meaning blame) := by
  refine (next_alike what).bind fun t t' ht => ?_
  rw [ht]
  split
  · exact .pure rfl
  · exact .failAt _ _ _

theorem operatorDeclaration_alike :
    Alike OperatorDeclaration.unplaced operatorDeclaration operatorDeclaration := by
  refine here_alike.bind fun first first' _ => (expectKeyword_alike _ _).bind_same fun _ => ?_
  refine (reading_alike _ _ _).bind fun associativity associativity' hassociativity => ?_
  refine (reading_alike _ _ _).bind fun precedence precedence' hprecedence => ?_
  refine (expect_alike _ _).bind fun _ _ _ => ?_
  refine (reading_alike _ _ _).bind fun operator operator' hoperator => ?_
  refine (expect_alike _ _).bind fun _ _ _ => (expect_alike _ _).bind fun _ _ _ => ?_
  refine declarationName_alike.bind fun function function' hfunction => ?_
  refine (expectEnd_alike _).bind_same fun _ => (since_alike _ _).bind fun _ _ _ => .pure ?_
  simp only [OperatorDeclaration.unplaced, Located.node_eq_of_unplaced hassociativity,
    Located.node_eq_of_unplaced hprecedence, hoperator, hfunction]

/-! ## Definitions -/

theorem countKeyword_of_kinds (word : Keyword) {tokens tokens' : List Token}
    (h : kinds tokens = kinds tokens') : countKeyword word tokens = countKeyword word tokens' :=
  countP_of_kinds h (· == .keyword word)

theorem checkBody_alike (owner : String) (before before' : Span) {tokens tokens' : List Token}
    (h : kinds tokens = kinds tokens') :
    seen id (checkBody owner before tokens) = seen id (checkBody owner before' tokens') := by
  unfold checkBody
  simp only [countKeyword_of_kinds _ h]
  obtain ⟨hnone, hnone'⟩ | ⟨last, last', hlast, hlast', hkind⟩ :=
    cases_of_map_eq (getLast?_of_kinds h)
  · rw [hnone, hnone']
    rfl
  · simp only [hlast, hlast', Token.text, hkind]
    split
    · rfl
    · split
      · rfl
      · split
        · rfl
        · split <;> rfl

theorem argumentsAndBody_alike {owner owner' : Name} {tokens tokens' : List Token}
    (howner : owner.unplaced = owner'.unplaced) (h : kinds tokens = kinds tokens') :
    seen (fun x => x.1.map Located.unplaced) (argumentsAndBody owner tokens) =
      seen (fun x => x.1.map Located.unplaced) (argumentsAndBody owner' tokens') := by
  refine seen_bind (balanced_alike h) fun _ _ _ => ?_
  rw [Located.node_eq_of_unplaced howner]
  obtain ⟨hnone, hnone'⟩ | ⟨split, split', hsplit, hsplit', hkinds⟩ :=
    cases_of_map_eq (splitAtTop?_of_kinds .equals 0 h)
  · rw [hnone, hnone']
    rfl
  · simp only [splitKinds, Prod.mk.injEq] at hkinds
    obtain ⟨hbefore, -, hbody⟩ := hkinds
    rw [hsplit, hsplit']
    refine seen_bind (checkBody_alike _ _ _ hbody) fun _ _ _ => congrArg Except.ok ?_
    have harguments := congrArg (List.map fun text => Located.mk text .dummy)
      (renderAtoms_of_kinds hbefore)
    simpa [Function.comp_def, Located.unplaced] using harguments

section

variable {doc doc' : Option (Located String)} {sig sig' : Option Signature}

theorem valueDeclaration_alike (hdoc : doc.map Located.unplaced = doc'.map Located.unplaced)
    (hsig : sig.map Signature.unplaced = sig'.map Signature.unplaced) :
    Alike ValueDeclaration.unplaced (valueDeclaration doc sig) (valueDeclaration doc' sig') := by
  refine here_alike.bind fun first first' _ => declarationName_alike.bind fun name name' hname => ?_
  refine remaining_alike.bind fun tokens tokens' htokens => ?_
  refine (Alike.lift (argumentsAndBody_alike hname htokens)).bind fun x x' hx => ?_
  refine (since_alike _ _).bind fun _ _ _ => .pure ?_
  simp only [ValueDeclaration.unplaced, hdoc, hsig, hname, hx]

/-- A declaration hangs on the kinds of its tokens, and on what waits for it. -/
theorem declaration_alike (kind : ModuleKind)
    (hdoc : doc.map Located.unplaced = doc'.map Located.unplaced)
    (hsig : sig.map Signature.unplaced = sig'.map Signature.unplaced) :
    Alike Declaration.unplaced (declaration kind doc sig) (declaration kind doc' sig') := by
  refine Alike.get.bind fun c c' hc => ?_
  obtain ⟨hnone, hnone'⟩ | ⟨t, t', ht, ht', hkind⟩ := cases_of_map_eq (head?_of_kinds hc)
  · rw [hnone, hnone']
    exact .failAt _ _ _
  · -- The kind of the first token chooses the reader, the same one in both runs.
    simp only [ht, ht', Token.text, hkind]
    split
    · refine peekSecond?_alike.bind_same fun second => ?_
      split
      · exact (aliasDeclaration_alike hdoc).bind fun _ _ hd =>
          .pure (congrArg Declaration.synonym hd)
      · exact (typeDeclaration_alike hdoc).bind fun _ _ hd => .pure (congrArg Declaration.type hd)
    · split
      · exact portDeclaration_alike.bind fun _ _ hd => .pure (congrArg Declaration.port hd)
      · exact .failAt _ _ _
    · exact operatorDeclaration_alike.bind fun _ _ hd => .pure (congrArg Declaration.operator hd)
    · exact (valueDeclaration_alike hdoc hsig).bind fun _ _ hd =>
        .pure (congrArg Declaration.value hd)
    · exact .failAt _ _ _
    · exact .failAt _ _ _

end

end Reader

end ElmIntake
