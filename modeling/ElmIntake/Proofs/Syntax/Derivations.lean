import ElmIntake.Proofs.Syntax.Nesting
import ElmIntake.Proofs.Syntax.Success
import ElmIntake.Proofs.Syntax.Yields

/-! # Headers and imports, by their grammar

    Items derive from the grammar

    * header: [`port`] `module` UPPER `exposing` LIST, or
      `effect` `module` UPPER `where` `{` settings `}` `exposing` LIST
    * `import` UPPER [`as` upper] [`exposing` LIST]
    * LIST: `(` `..` `)`, or `(` exposed {`,` exposed} `)`
    * exposed: lower, or upper [`(` `..` `)`], or `(` operator `)`

    where UPPER may have dots and the other names have none, and settings are any tokens
    in which braces are nested. A **form** is a derivation: it has the kinds of the tokens
    that derive, and the tree that they stand for.

    Each reader takes the tokens of a form, whenever it succeeds (`_ok`), and takes those
    of every form (`_yields`). As a reader gives one tree only, a list of tokens has at
    most one form.

    Main statement: `Reader.headers_and_imports_derive`. -/

namespace ElmIntake

/-! ## Forms -/

/-- A name without dots. -/
abbrev PlainName := { name : String // Reader.isDotted name = false }

/-- A name with dots between its segments. -/
structure SegmentedName where
  segments : List String
  nonempty : segments ≠ []
  plain : ∀ segment ∈ segments, Reader.isDotted segment = false

/-- The name as it is written. -/
def SegmentedName.text (name : SegmentedName) : String := ".".intercalate name.segments

/-- Settings of a module of effects. -/
abbrev NestedBraces := { ks : List TokenKind // WellNested IsBrace ks }

/-- An item of an exposing list. -/
inductive ExposedForm where
  | value (name : PlainName)
  | type (name : PlainName) (isOpen : Bool)
  | operator (symbols : String)

/-- An exposing list. -/
inductive ExposingForm where
  | all
  | listed (first : ExposedForm) (others : List ExposedForm)

structure ImportForm where
  name : SegmentedName
  asName : Option PlainName
  exposing : Option ExposingForm

inductive HeaderForm where
  | plain (isPort : Bool) (name : SegmentedName) (exposing : ExposingForm)
  | effect (name : SegmentedName) (settings : NestedBraces) (exposing : ExposingForm)

namespace ExposedForm

/-- The kinds of the tokens that derive. -/
def kinds : ExposedForm → List TokenKind
  | value name => [.lowerName name.1]
  | type name isOpen =>
    .upperName name.1 ::
      if isOpen then [.opening .paren, .operator "..", .closing .paren] else []
  | operator symbols => [.opening .paren, .operator symbols, .closing .paren]

/-- What they stand for. -/
def tree : ExposedForm → ExposedItem
  | value name => .value name.1
  | type name isOpen => .type name.1 isOpen
  | operator symbols => .operator symbols

end ExposedForm

namespace ExposingForm

/-- The kinds of the items behind the first one, and of the commas before them. -/
def otherKinds (others : List ExposedForm) : List TokenKind :=
  others.flatMap fun other => .comma :: other.kinds

def kinds : ExposingForm → List TokenKind
  | all => [.opening .paren, .operator "..", .closing .paren]
  | listed first others =>
    .opening .paren :: (first.kinds ++ (otherKinds others ++ [.closing .paren]))

def tree : ExposingForm → Exposing
  | all => .all .dummy
  | listed first others => .listed ((first :: others).map fun exposed => ⟨exposed.tree, .dummy⟩)

end ExposingForm

namespace ImportForm

def aliasKinds (asName : Option PlainName) : List TokenKind :=
  asName.elim [] fun name => [.keyword .asWord, .upperName name.1]

def exposingKinds (exposing : Option ExposingForm) : List TokenKind :=
  exposing.elim [] fun exposing => .keyword .exposingWord :: exposing.kinds

def kinds (f : ImportForm) : List TokenKind :=
  .keyword .importWord :: .upperName f.name.text ::
    (aliasKinds f.asName ++ exposingKinds f.exposing)

def tree (f : ImportForm) : Import where
  moduleName := ⟨⟨f.name.segments⟩, .dummy⟩
  asName := f.asName.map fun name => ⟨name.1, .dummy⟩
  exposing := f.exposing.map ExposingForm.tree
  span := .dummy

end ImportForm

namespace HeaderForm

/-- The rest of a header, from the name of the module on. -/
def endKinds (exposing : ExposingForm) : List TokenKind :=
  .keyword .exposingWord :: exposing.kinds

def kinds : HeaderForm → List TokenKind
  | plain isPort name exposing =>
    (if isPort then [.keyword .portWord] else []) ++
      .keyword .moduleWord :: .upperName name.text :: endKinds exposing
  | effect name settings exposing =>
    .keyword .effectWord :: .keyword .moduleWord :: .upperName name.text ::
      .keyword .whereWord :: .opening .brace ::
        (settings.1 ++ .closing .brace :: endKinds exposing)

def tree : HeaderForm → ModuleHeader
  | plain isPort name exposing =>
    ⟨if isPort then .port else .normal, ⟨⟨name.segments⟩, .dummy⟩, exposing.tree, false, .dummy⟩
  | effect name _ exposing =>
    ⟨.effect, ⟨⟨name.segments⟩, .dummy⟩, exposing.tree, false, .dummy⟩

end HeaderForm

/-! ## Names of modules -/

theorem dot_not_mem_of_mem_dottedParts {cs part : List Char} (h : part ∈ dottedParts cs) :
    '.' ∉ part := by
  induction cs generalizing part with
  | nil =>
    rw [dottedParts, List.mem_singleton] at h
    rw [h]
    exact List.not_mem_nil
  | cons c cs ih =>
    rw [dottedParts] at h
    split at h
    · rcases List.mem_cons.1 h with rfl | h
      · exact List.not_mem_nil
      · exact ih h
    · next hdot =>
      split at h
      · rw [List.mem_singleton.1 h, List.mem_singleton]
        exact Ne.symm hdot
      · next first parts hparts =>
        rw [hparts] at ih
        rcases List.mem_cons.1 h with rfl | h
        · rw [List.mem_cons, not_or]
          exact ⟨Ne.symm hdot, ih List.mem_cons_self⟩
        · exact ih (List.mem_cons_of_mem _ h)

theorem dottedParts_of_plain {cs : List Char} (h : '.' ∉ cs) : dottedParts cs = [cs] := by
  induction cs with
  | nil => rfl
  | cons c cs ih =>
    rw [List.mem_cons, not_or] at h
    rw [dottedParts, if_neg (Ne.symm h.1), ih h.2]

theorem dottedParts_plain_append {cs : List Char} (h : '.' ∉ cs) (rest : List Char) :
    dottedParts (cs ++ '.' :: rest) = cs :: dottedParts rest := by
  induction cs with
  | nil => rw [List.nil_append, dottedParts, if_pos rfl]
  | cons c cs ih =>
    rw [List.mem_cons, not_or] at h
    rw [List.cons_append, dottedParts, if_neg (Ne.symm h.1), ih h.2]

theorem dottedParts_intercalate {parts : List (List Char)} (hne : parts ≠ [])
    (h : ∀ part ∈ parts, '.' ∉ part) : dottedParts (['.'].intercalate parts) = parts := by
  induction parts with
  | nil => exact absurd rfl hne
  | cons first parts ih =>
    obtain ⟨hfirst, hparts⟩ := List.forall_mem_cons.1 h
    cases parts with
    | nil =>
      rw [List.intercalate_singleton]
      exact dottedParts_of_plain hfirst
    | cons next parts =>
      rw [List.intercalate_cons_cons, List.append_assoc, List.singleton_append,
        dottedParts_plain_append hfirst, ih (List.cons_ne_nil _ _) hparts]

theorem Reader.isDotted_eq_false_iff {name : String} :
    isDotted name = false ↔ '.' ∉ name.toList := by
  unfold isDotted
  rw [← Bool.not_eq_true, List.contains_iff_mem]

namespace SegmentedName

/-- The segments of a name are found again. -/
theorem ofDotted_text (name : SegmentedName) : ModuleName.ofDotted name.text = ⟨name.segments⟩ := by
  obtain ⟨segments, hne, hplain⟩ := name
  have hparts : dottedParts (['.'].intercalate (segments.map String.toList)) =
      segments.map String.toList := by
    apply dottedParts_intercalate
    · exact fun hnil => hne (List.map_eq_nil_iff.1 hnil)
    · intro part hpart
      obtain ⟨segment, hsegment, rfl⟩ := List.mem_map.1 hpart
      exact Reader.isDotted_eq_false_iff.1 (hplain segment hsegment)
  unfold ModuleName.ofDotted text
  rw [String.toList_intercalate]
  show ModuleName.mk ((dottedParts (['.'].intercalate (segments.map String.toList))).map _) = _
  rw [hparts, List.map_map]
  simp [Function.comp_def]

/-- Every name has segments. -/
theorem exists_text (text : String) : ∃ name : SegmentedName, name.text = text := by
  refine ⟨⟨(ModuleName.ofDotted text).segments, ?_, ?_⟩, ModuleName.dotted_ofDotted text⟩
  · exact fun hnil => dottedParts_ne_nil _ (List.map_eq_nil_iff.1 hnil)
  · intro segment hsegment
    obtain ⟨part, hpart, rfl⟩ := List.mem_map.1 hsegment
    rw [Reader.isDotted_eq_false_iff, String.toList_ofList]
    exact dot_not_mem_of_mem_dottedParts hpart

theorem eq_of_segments {name name' : SegmentedName} (h : name.segments = name'.segments) :
    name = name' := by
  cases name
  cases name'
  cases h
  rfl

end SegmentedName

namespace Reader

/-! ## What is read has a form -/

section

variable {c c' : Cursor}

theorem moduleName_ok {what : Expected} {name : Located ModuleName}
    (h : moduleName what c = .ok (name, c')) :
    ∃ f : SegmentedName, kinds c.ahead = .upperName f.text :: kinds c'.ahead := by
  obtain ⟨word, c₁, hname, hend⟩ := bind_ok_iff.1 h
  cases hend
  obtain ⟨f, hf⟩ := SegmentedName.exists_text word.node
  exact ⟨f, by rw [hf]; exact upperName_ok hname⟩

theorem atDots_ok {dots : Bool} (h : atDots c = .ok (dots, c')) :
    dots = ((kinds c.ahead).head? == some (.operator "..")) ∧ c = c' := by
  obtain ⟨kind?, c₁, hpeek, hend⟩ := bind_ok_iff.1 h
  obtain ⟨rfl, rfl⟩ := peek?_ok hpeek
  cases hend
  exact ⟨rfl, rfl⟩

/-- Where dots are ahead. -/
theorem dotsAndClose_ok {span : Span} (hdots : atDots c = .ok (true, c))
    (h : dotsAndClose c = .ok (span, c')) :
    kinds c.ahead = .operator ".." :: .closing .paren :: kinds c'.ahead := by
  obtain ⟨hhead, -⟩ := atDots_ok hdots
  obtain ⟨dots, c₁, hnext, hclose⟩ := bind_ok_iff.1 h
  have htook := next_ok hnext
  rw [htook] at hhead
  rw [htook, expect_ok hclose, Option.some.inj (beq_iff_eq.1 hhead.symm)]

theorem exposedItem_ok {item : Located ExposedItem} (h : exposedItem c = .ok (item, c')) :
    ∃ f : ExposedForm, kinds c.ahead = f.kinds ++ kinds c'.ahead := by
  obtain ⟨⟨kind, span⟩, c₁, hnext, hrest⟩ := bind_ok_iff.1 h
  rw [next_ok hnext]
  dsimp only at hrest ⊢
  -- It starts as a value, as a type or with the parenthesis of an operator.
  split at hrest
  · next name =>
    split at hrest
    · cases hrest
    · next hplain =>
      cases hrest
      exact ⟨.value ⟨name, Bool.eq_false_iff.2 hplain⟩, rfl⟩
  · next name =>
    split at hrest
    · cases hrest
    · next hplain =>
      have hname : isDotted name = false := Bool.eq_false_iff.2 hplain
      obtain ⟨opened, c₂, haccept, hrest⟩ := bind_ok_iff.1 hrest
      rw [accept_ok haccept]
      cases opened with
      | false =>
        obtain ⟨whole, c₃, hsince, hend⟩ := bind_ok_iff.1 hrest
        obtain rfl := since_ok hsince
        cases hend
        exact ⟨.type ⟨name, hname⟩ false, rfl⟩
      | true =>
        obtain ⟨dots, c₃, hdots, hrest⟩ := bind_ok_iff.1 hrest
        obtain ⟨-, rfl⟩ := atDots_ok hdots
        cases dots with
        | false => cases hrest
        | true =>
          obtain ⟨close, c₄, hclose, hrest⟩ := bind_ok_iff.1 hrest
          obtain ⟨whole, c₅, hsince, hend⟩ := bind_ok_iff.1 hrest
          obtain rfl := since_ok hsince
          cases hend
          rw [dotsAndClose_ok hdots hclose]
          exact ⟨.type ⟨name, hname⟩ true, rfl⟩
  · obtain ⟨⟨kind', span'⟩, c₂, hnext', hrest⟩ := bind_ok_iff.1 hrest
    rw [next_ok hnext']
    dsimp only at hrest ⊢
    split at hrest
    · next symbols =>
      obtain ⟨close, c₃, hclose, hrest⟩ := bind_ok_iff.1 hrest
      obtain ⟨whole, c₄, hsince, hend⟩ := bind_ok_iff.1 hrest
      obtain rfl := since_ok hsince
      cases hend
      rw [expect_ok hclose]
      exact ⟨.operator symbols, rfl⟩
    · cases hrest
  · cases hrest
  · cases hrest

/-- The induction is on the fuel. -/
theorem exposedItems_ok {fuel : Nat} {items : List (Located ExposedItem)}
    (h : exposedItems fuel c = .ok (items, c')) :
    ∃ (first : ExposedForm) (others : List ExposedForm), kinds c.ahead =
      first.kinds ++ (ExposingForm.otherKinds others ++ .closing .paren :: kinds c'.ahead) := by
  induction fuel generalizing c c' items with
  | zero => cases h
  | succ fuel ih =>
    obtain ⟨item, c₁, hitem, hrest⟩ := bind_ok_iff.1 h
    obtain ⟨first, hfirst⟩ := exposedItem_ok hitem
    obtain ⟨comma, c₂, hcomma, hrest⟩ := bind_ok_iff.1 hrest
    rw [hfirst, accept_ok hcomma]
    cases comma with
    | true =>
      obtain ⟨others, c₃, hothers, hend⟩ := bind_ok_iff.1 hrest
      cases hend
      obtain ⟨second, others, hlisted⟩ := ih hothers
      refine ⟨first, second :: others, ?_⟩
      rw [hlisted]
      simp [ExposingForm.otherKinds]
    | false =>
      obtain ⟨close, c₃, hclose, hend⟩ := bind_ok_iff.1 hrest
      cases hend
      refine ⟨first, [], ?_⟩
      rw [expect_ok hclose]
      rfl

theorem exposing_ok {exposed : Exposing} (h : exposing c = .ok (exposed, c')) :
    ∃ f : ExposingForm, kinds c.ahead = f.kinds ++ kinds c'.ahead := by
  obtain ⟨first, c₁, hopen, hrest⟩ := bind_ok_iff.1 h
  obtain ⟨dots, c₂, hdots, hrest⟩ := bind_ok_iff.1 hrest
  obtain ⟨-, rfl⟩ := atDots_ok hdots
  rw [expect_ok hopen]
  cases dots with
  | true =>
    obtain ⟨close, c₃, hclose, hend⟩ := bind_ok_iff.1 hrest
    cases hend
    rw [dotsAndClose_ok hdots hclose]
    exact ⟨.all, rfl⟩
  | false =>
    obtain ⟨here, c₃, hget, hrest⟩ := bind_ok_iff.1 hrest
    cases hget
    obtain ⟨items, c₄, hitems, hend⟩ := bind_ok_iff.1 hrest
    cases hend
    obtain ⟨first, others, hlisted⟩ := exposedItems_ok hitems
    refine ⟨.listed first others, ?_⟩
    rw [hlisted]
    simp [ExposingForm.kinds]

theorem settings_ok {opener : Span} {u : Unit} (h : settings opener c = .ok (u, c')) :
    ∃ inner : NestedBraces, kinds c.ahead = inner.1 ++ .closing .brace :: kinds c'.ahead := by
  obtain ⟨here, c₁, hget, hrest⟩ := bind_ok_iff.1 h
  cases hget
  cases hbrace : closingBrace? 0 c.ahead with
  | none =>
    rw [hbrace] at hrest
    cases hrest
  | some n =>
    rw [hbrace] at hrest
    cases hrest
    obtain ⟨inner, hinner, hnested⟩ := exists_of_closingBrace? hbrace
    cases hnested with
    | outside hnested =>
      refine ⟨⟨inner, hnested⟩, ?_⟩
      -- The tokens are those up to the brace, and those behind it.
      have hsplit : kinds c.ahead = kinds (c.ahead.take n) ++ kinds (c.ahead.drop n) := by
        unfold kinds
        rw [← List.map_append, List.take_append_drop]
      rw [hsplit, hinner, List.append_assoc]
      rfl

theorem importAlias_ok {asName : Option Name} (h : importAlias c = .ok (asName, c')) :
    ∃ f, kinds c.ahead = ImportForm.aliasKinds f ++ kinds c'.ahead := by
  obtain ⟨as, c₁, has, hrest⟩ := bind_ok_iff.1 h
  rw [accept_ok has]
  cases as with
  | false =>
    cases hrest
    exact ⟨none, rfl⟩
  | true =>
    obtain ⟨name, c₂, hname, hrest⟩ := bind_ok_iff.1 hrest
    rw [upperName_ok hname]
    split at hrest
    · cases hrest
    · next hplain =>
      cases hrest
      exact ⟨some ⟨name.node, Bool.eq_false_iff.2 hplain⟩, rfl⟩

theorem importExposing_ok {exposed : Option Exposing}
    (h : importExposing c = .ok (exposed, c')) :
    ∃ f, kinds c.ahead = ImportForm.exposingKinds f ++ kinds c'.ahead := by
  obtain ⟨word, c₁, hword, hrest⟩ := bind_ok_iff.1 h
  rw [accept_ok hword]
  cases word with
  | false =>
    cases hrest
    exact ⟨none, rfl⟩
  | true =>
    obtain ⟨exposed, c₂, hexposed, hend⟩ := bind_ok_iff.1 hrest
    cases hend
    obtain ⟨f, hf⟩ := exposing_ok hexposed
    refine ⟨some f, ?_⟩
    rw [hf]
    rfl

/-- **An import that is read** has a form. -/
theorem import_ok {i : Import} (h : import_ c = .ok (i, c')) :
    ∃ f : ImportForm, kinds c.ahead = f.kinds := by
  obtain ⟨first, c₁, hhere, hrest⟩ := bind_ok_iff.1 h
  obtain rfl := here_ok hhere
  obtain ⟨_, c₂, hword, hrest⟩ := bind_ok_iff.1 hrest
  obtain ⟨name, c₃, hname, hrest⟩ := bind_ok_iff.1 hrest
  obtain ⟨asName, c₄, hasName, hrest⟩ := bind_ok_iff.1 hrest
  obtain ⟨exposed, c₅, hexposed, hrest⟩ := bind_ok_iff.1 hrest
  obtain ⟨_, c₆, hend, -⟩ := bind_ok_iff.1 hrest
  obtain ⟨nameForm, hnameForm⟩ := moduleName_ok hname
  obtain ⟨aliasForm, haliasForm⟩ := importAlias_ok hasName
  obtain ⟨exposingForm, hexposingForm⟩ := importExposing_ok hexposed
  obtain ⟨hnone, -⟩ := expectEnd_ok hend
  refine ⟨⟨nameForm, aliasForm, exposingForm⟩, ?_⟩
  rw [expectKeyword_ok hword, hnameForm, haliasForm, hexposingForm, hnone, List.append_nil]
  rfl

/-- The kinds of the word before `module`. -/
def kindWords : ModuleKind → List TokenKind
  | .normal => []
  | .port => [.keyword .portWord]
  | .effect => [.keyword .effectWord]

theorem moduleKind_ok {kind : ModuleKind} (h : moduleKind c = .ok (kind, c')) :
    kinds c.ahead = kindWords kind ++ kinds c'.ahead := by
  obtain ⟨port, c₁, hport, hrest⟩ := bind_ok_iff.1 h
  rw [accept_ok hport]
  cases port with
  | true =>
    cases hrest
    rfl
  | false =>
    obtain ⟨effect, c₂, heffect, hrest⟩ := bind_ok_iff.1 hrest
    rw [accept_ok heffect]
    cases effect with
    | true =>
      cases hrest
      rfl
    | false =>
      cases hrest
      rfl

/-- The end of a header, from `exposing` on. -/
theorem headerEnd_ok {kind : ModuleKind} {name : Located ModuleName} {first : Span}
    {m : ModuleHeader}
    (h : (do
      expectKeyword .exposingWord (.exposingAfter name.node.dotted)
      let exposed ← exposing
      expectEnd .header
      return ⟨kind, name, exposed, false, ← since first⟩ : Reader ModuleHeader) c = .ok (m, c')) :
    ∃ f, kinds c.ahead = HeaderForm.endKinds f := by
  obtain ⟨_, c₁, hword, hrest⟩ := bind_ok_iff.1 h
  obtain ⟨exposed, c₂, hexposed, hrest⟩ := bind_ok_iff.1 hrest
  obtain ⟨_, c₃, hend, -⟩ := bind_ok_iff.1 hrest
  obtain ⟨f, hf⟩ := exposing_ok hexposed
  obtain ⟨hnone, -⟩ := expectEnd_ok hend
  refine ⟨f, ?_⟩
  rw [expectKeyword_ok hword, hf, hnone, List.append_nil]
  rfl

/-- **A header that is read** has a form. -/
theorem header_ok {m : ModuleHeader} (h : header c = .ok (m, c')) :
    ∃ f : HeaderForm, kinds c.ahead = f.kinds := by
  obtain ⟨first, c₁, hhere, hrest⟩ := bind_ok_iff.1 h
  obtain rfl := here_ok hhere
  obtain ⟨kind, c₂, hkind, hrest⟩ := bind_ok_iff.1 hrest
  obtain ⟨_, c₃, hmodule, hrest⟩ := bind_ok_iff.1 hrest
  obtain ⟨name, c₄, hname, hrest⟩ := bind_ok_iff.1 hrest
  obtain ⟨nameForm, hnameForm⟩ := moduleName_ok hname
  rw [moduleKind_ok hkind, expectKeyword_ok hmodule, hnameForm]
  cases kind with
  | normal =>
    obtain ⟨f, hf⟩ := headerEnd_ok hrest
    refine ⟨.plain false nameForm f, ?_⟩
    rw [hf]
    rfl
  | port =>
    obtain ⟨f, hf⟩ := headerEnd_ok hrest
    refine ⟨.plain true nameForm f, ?_⟩
    rw [hf]
    rfl
  | effect =>
    obtain ⟨_, c₅, hwhere, hrest⟩ := bind_ok_iff.1 hrest
    obtain ⟨opener, c₆, hopen, hrest⟩ := bind_ok_iff.1 hrest
    obtain ⟨_, c₇, hsettings, hrest⟩ := bind_ok_iff.1 hrest
    obtain ⟨inner, hinner⟩ := settings_ok hsettings
    obtain ⟨f, hf⟩ := headerEnd_ok hrest
    refine ⟨.effect nameForm inner f, ?_⟩
    rw [expectKeyword_ok hwhere, expect_ok hopen, hinner, hf]
    rfl

end

/-! ## Forms are read -/

section

variable {ks : List TokenKind}

theorem dots_yields : Yields atDots ks ks (ks.head? == some (.operator "..")) :=
  peek?_yields.bind .pure

theorem close_yields :
    Yields dotsAndClose (.operator ".." :: .closing .paren :: ks) ks .dummy :=
  (next_yields _).bind (expect_yields _)

theorem exposedForm_yields (f : ExposedForm) (h : ks.head? ≠ some (.opening .paren)) :
    Yields exposedItem (f.kinds ++ ks) ks ⟨f.tree, .dummy⟩ := by
  cases f with
  | value name =>
    refine (next_yields _).bind ?_
    dsimp only
    rw [name.2]
    exact .pure
  | operator symbols =>
    refine (next_yields _).bind ((next_yields _).bind ?_)
    exact (expect_yields _).bind (since_yields.bind .pure)
  | type name isOpen =>
    cases isOpen with
    | false =>
      refine (next_yields _).bind ?_
      dsimp only
      rw [name.2]
      exact (accept_yields_false h).bind (since_yields.bind .pure)
    | true =>
      refine (next_yields _).bind ?_
      dsimp only
      rw [name.2]
      refine accept_yields.bind (dots_yields.bind ?_)
      exact close_yields.bind (since_yields.bind .pure)

/-- The list goes on as long as there are items. -/
theorem listedForms_yields (first : ExposedForm) (others : List ExposedForm) {fuel : Nat}
    (hfuel : others.length < fuel) :
    Yields (exposedItems fuel)
      (first.kinds ++ (ExposingForm.otherKinds others ++ .closing .paren :: ks)) ks
      ((first :: others).map fun f => ⟨f.tree, .dummy⟩) := by
  induction others generalizing first fuel with
  | nil =>
    cases fuel with
    | zero => cases hfuel
    | succ fuel =>
      refine (exposedForm_yields first (by simp [ExposingForm.otherKinds])).bind ?_
      refine (accept_yields_false (by simp [ExposingForm.otherKinds])).bind ?_
      exact (expect_yields _).bind .pure
  | cons second others ih =>
    cases fuel with
    | zero => cases hfuel
    | succ fuel =>
      have hrest := ih second (Nat.lt_of_succ_lt_succ hfuel)
      rw [← List.append_assoc] at hrest
      refine (exposedForm_yields first (by simp [ExposingForm.otherKinds])).bind ?_
      refine accept_yields.bind ?_
      exact hrest.bind .pure

theorem length_otherForms (others : List ExposedForm) :
    others.length ≤ (ExposingForm.otherKinds others).length := by
  induction others with
  | nil => exact Nat.le_refl _
  | cons second others ih =>
    unfold ExposingForm.otherKinds at ih ⊢
    simp only [List.flatMap_cons, List.length_cons, List.length_append]
    omega

theorem exposingForm_yields (f : ExposingForm) : Yields exposing (f.kinds ++ ks) ks f.tree := by
  cases f with
  | all =>
    refine (expect_yields _).bind ?_
    refine dots_yields.bind ?_
    exact close_yields.bind .pure
  | listed first others =>
    have hkinds : (ExposingForm.listed first others).kinds ++ ks =
        .opening .paren :: (first.kinds ++
          (ExposingForm.otherKinds others ++ .closing .paren :: ks)) := by
      simp [ExposingForm.kinds]
    rw [hkinds]
    refine (expect_yields _).bind ?_
    refine dots_yields.bind ?_
    have hdots : ((first.kinds ++ (ExposingForm.otherKinds others ++
        .closing .paren :: ks)).head? == some (.operator "..")) = false := by
      cases first <;> rfl
    rw [hdots]
    refine Yields.get.bind ?_
    refine (listedForms_yields first others ?_).bind .pure
    have hlength := length_otherForms others
    simp only [bare, List.length_map, List.length_append, List.length_cons]
    omega

theorem segmentedName_yields (name : SegmentedName) (what : Expected) :
    Yields (moduleName what) (.upperName name.text :: ks) ks ⟨⟨name.segments⟩, .dummy⟩ := by
  refine (upperName_yields what _).bind ?_
  dsimp only
  rw [name.ofDotted_text]
  exact .pure

theorem aliasForm_yields (asName : Option PlainName) (h : ks.head? ≠ some (.keyword .asWord)) :
    Yields importAlias (ImportForm.aliasKinds asName ++ ks) ks
      (asName.map fun name => ⟨name.1, .dummy⟩) := by
  cases asName with
  | none => exact (accept_yields_false h).bind .pure
  | some name =>
    refine accept_yields.bind ?_
    refine (upperName_yields _ _).bind ?_
    dsimp only
    rw [name.2]
    exact .pure

/-- An exposing list up to the end. -/
theorem exposingForm_yields_end (f : ExposingForm) : Yields exposing f.kinds [] f.tree := by
  have hexposing : Yields exposing (f.kinds ++ []) [] f.tree := exposingForm_yields f
  rwa [List.append_nil] at hexposing

theorem exposingForm?_yields (exposed : Option ExposingForm) :
    Yields importExposing (ImportForm.exposingKinds exposed) []
      (exposed.map ExposingForm.tree) := by
  cases exposed with
  | none => exact (accept_yields_false (by simp [ImportForm.exposingKinds])).bind .pure
  | some f =>
    refine accept_yields.bind ?_
    exact (exposingForm_yields_end f).bind .pure

/-- **An import of every form** is read. -/
theorem importForm_yields (f : ImportForm) : Yields import_ f.kinds [] f.tree := by
  have hexposed : (ImportForm.exposingKinds f.exposing).head? ≠ some (.keyword .asWord) := by
    cases f.exposing <;> simp [ImportForm.exposingKinds]
  refine here_yields.bind ?_
  refine (expectKeyword_yields _ _).bind ?_
  refine (segmentedName_yields _ _).bind ?_
  refine (aliasForm_yields f.asName hexposed).bind ?_
  refine (exposingForm?_yields f.exposing).bind ?_
  refine (expectEnd_yields _).bind ?_
  exact since_yields.bind .pure

theorem settings_yields (inner : NestedBraces) (opener : Span) :
    Yields (settings opener) (inner.1 ++ .closing .brace :: ks) ks () := by
  refine Yields.get.bind ?_
  dsimp only
  rw [closingBrace?_bare inner.2]
  have hrest : (inner.1 ++ .closing .brace :: ks).drop (inner.1.length + 1) = ks := by
    rw [List.drop_append]
    simp
  exact modifyGet_yields () hrest

theorem headerEnd_yields (kind : ModuleKind) (name : SegmentedName) (f : ExposingForm) :
    Yields (do
      expectKeyword .exposingWord (.exposingAfter (ModuleName.mk name.segments).dotted)
      let exposed ← exposing
      expectEnd .header
      return ⟨kind, ⟨⟨name.segments⟩, .dummy⟩, exposed, false, ← since .dummy⟩)
      (HeaderForm.endKinds f) []
      (⟨kind, ⟨⟨name.segments⟩, .dummy⟩, f.tree, false, .dummy⟩ : ModuleHeader) := by
  refine (expectKeyword_yields _ _).bind ?_
  refine (exposingForm_yields_end f).bind ?_
  refine (expectEnd_yields _).bind ?_
  exact since_yields.bind .pure

/-- **A header of every form** is read. -/
theorem headerForm_yields (f : HeaderForm) : Yields header f.kinds [] f.tree := by
  refine here_yields.bind ?_
  cases f with
  | plain isPort name exposing =>
    cases isPort with
    | false =>
      have hkind : Yields moduleKind (HeaderForm.plain false name exposing).kinds
          (HeaderForm.plain false name exposing).kinds .normal := by
        refine (accept_yields_false (by simp [HeaderForm.kinds])).bind ?_
        refine (accept_yields_false (by simp [HeaderForm.kinds])).bind ?_
        exact .pure
      refine hkind.bind ?_
      refine (expectKeyword_yields _ _).bind ?_
      refine (segmentedName_yields _ _).bind ?_
      exact headerEnd_yields .normal name exposing
    | true =>
      refine (accept_yields.bind .pure : Yields moduleKind _ _ .port).bind ?_
      refine (expectKeyword_yields _ _).bind ?_
      refine (segmentedName_yields _ _).bind ?_
      exact headerEnd_yields .port name exposing
  | effect name inner exposing =>
    have hkind : Yields moduleKind (HeaderForm.effect name inner exposing).kinds
        (HeaderForm.effect name inner exposing).kinds.tail .effect := by
      refine (accept_yields_false (by simp [HeaderForm.kinds])).bind ?_
      exact accept_yields.bind .pure
    refine hkind.bind ?_
    refine (expectKeyword_yields _ _).bind ?_
    refine (segmentedName_yields _ _).bind ?_
    refine (expectKeyword_yields _ _).bind ?_
    refine (expect_yields _).bind ?_
    refine (settings_yields inner _).bind ?_
    exact headerEnd_yields .effect name exposing

end

end Reader

/-! ## One form at most -/

theorem ExposedForm.eq_of_tree {f f' : ExposedForm} (h : f.tree = f'.tree) : f = f' := by
  cases f <;> cases f' <;> simp_all [tree, Subtype.ext_iff]

theorem ExposingForm.eq_of_tree {f f' : ExposingForm} (h : f.tree = f'.tree) : f = f' := by
  cases f with
  | all =>
    cases f' with
    | all => rfl
    | listed first others => cases h
  | listed first others =>
    cases f' with
    | all => cases h
    | listed first' others' =>
      have hlists := Exposing.listed.inj h
      have hinjective : Function.Injective
          fun f : ExposedForm => (⟨f.tree, .dummy⟩ : Located ExposedItem) := by
        intro f f' hf
        exact ExposedForm.eq_of_tree (congrArg Located.node hf)
      obtain ⟨rfl, rfl⟩ := List.cons.inj (hinjective.list_map hlists)
      rfl

/-- The segments of two names without places. -/
theorem SegmentedName.eq_of_node {name name' : SegmentedName}
    (h : (⟨⟨name.segments⟩, .dummy⟩ : Located ModuleName) = ⟨⟨name'.segments⟩, .dummy⟩) :
    name = name' :=
  eq_of_segments (congrArg (fun l : Located ModuleName => l.node.segments) h)

theorem ImportForm.eq_of_tree {f f' : ImportForm} (h : f.tree = f'.tree) : f = f' := by
  obtain ⟨name, asName, exposing⟩ := f
  obtain ⟨name', asName', exposing'⟩ := f'
  obtain ⟨hname, hasName, hexposing, -⟩ := Import.mk.inj h
  have hplain : Function.Injective fun name : PlainName => (⟨name.1, .dummy⟩ : Name) := by
    intro name name' hnames
    exact Subtype.ext (congrArg Located.node hnames)
  have htree : Function.Injective ExposingForm.tree := fun _ _ => ExposingForm.eq_of_tree
  obtain rfl := SegmentedName.eq_of_node hname
  obtain rfl := Option.map_injective hplain hasName
  obtain rfl := Option.map_injective htree hexposing
  rfl

/-- The settings are not in the tree, but between tokens that are known from it. -/
theorem HeaderForm.eq_of_tree {f f' : HeaderForm} (h : f.tree = f'.tree)
    (hkinds : f.kinds = f'.kinds) : f = f' := by
  obtain ⟨hkind, hname, hexposing, -⟩ := ModuleHeader.mk.inj h
  cases f with
  | plain isPort name exposing =>
    cases f' with
    | plain isPort' name' exposing' =>
      obtain rfl := SegmentedName.eq_of_node hname
      obtain rfl := ExposingForm.eq_of_tree hexposing
      have hport : isPort = isPort' := by
        cases isPort <;> cases isPort' <;> first | rfl | cases hkind
      rw [hport]
    | effect name' inner' exposing' => cases isPort <;> cases hkind
  | effect name inner exposing =>
    cases f' with
    | plain isPort' name' exposing' => cases isPort' <;> cases hkind
    | effect name' inner' exposing' =>
      obtain rfl := SegmentedName.eq_of_node hname
      obtain rfl := ExposingForm.eq_of_tree hexposing
      simp only [kinds, List.cons.injEq, true_and] at hkinds
      obtain rfl := Subtype.ext (List.append_cancel_right hkinds)
      rfl

theorem ExposingForm.unplaced_tree (f : ExposingForm) : f.tree.unplaced = f.tree := by
  cases f with
  | all => rfl
  | listed first others => simp [tree, Exposing.unplaced, Located.unplaced]

theorem ImportForm.unplaced_tree (f : ImportForm) : f.tree.unplaced = f.tree := by
  obtain ⟨name, asName, exposing⟩ := f
  cases asName <;> cases exposing <;>
    simp [tree, Import.unplaced, Located.unplaced, ExposingForm.unplaced_tree]

theorem HeaderForm.unplaced_tree (f : HeaderForm) : f.tree.unplaced = f.tree := by
  cases f <;> simp [tree, ModuleHeader.unplaced, Located.unplaced, ExposingForm.unplaced_tree]

theorem Reader.Yields.unique {α : Type} {reader : Reader α} {ks ls ls' : List TokenKind} {a a' : α}
    (h : Yields reader ks ls a) (h' : Yields reader ks ls' a') : a = a' := by
  unfold Yields at h h'
  rw [h] at h'
  exact congrArg Prod.fst (Except.ok.inj h')

theorem ImportForm.eq_of_kinds {f f' : ImportForm} (h : f.kinds = f'.kinds) : f = f' := by
  have hyields := Reader.importForm_yields f
  rw [h] at hyields
  exact eq_of_tree (hyields.unique (Reader.importForm_yields f'))

theorem HeaderForm.eq_of_kinds {f f' : HeaderForm} (h : f.kinds = f'.kinds) : f = f' := by
  have hyields := Reader.headerForm_yields f
  rw [h] at hyields
  exact eq_of_tree (hyields.unique (Reader.headerForm_yields f')) h

namespace Reader

/-- **Does a reader accept exactly what has a form**, and give the tree of the form? -/
structure Derives {α φ : Type} (reader : Reader α) (view : α → α) (kindsOf : φ → List TokenKind)
    (tree : φ → α) : Prop where
  accepts_iff : ∀ tokens, (∃ a, reader.onTokens tokens = .ok a) ↔ ∃ f, kindsOf f = kinds tokens
  unique : ∀ f f', kindsOf f = kindsOf f' → f = f'
  gives : ∀ tokens a f, reader.onTokens tokens = .ok a → kindsOf f = kinds tokens →
    view a = tree f

theorem Derives.of {α φ : Type} {reader : Reader α} {view : α → α} {kindsOf : φ → List TokenKind}
    {tree : φ → α} (halike : Alike view reader reader)
    (hsound : ∀ c a c', reader c = .ok (a, c') → ∃ f, kinds c.ahead = kindsOf f)
    (hcomplete : ∀ f, Yields reader (kindsOf f) [] (tree f)) (hview : ∀ f, view (tree f) = tree f)
    (hunique : ∀ f f', kindsOf f = kindsOf f' → f = f') : Derives reader view kindsOf tree where
  accepts_iff tokens := by
    constructor
    · rintro ⟨a, ha⟩
      obtain ⟨c', hrun⟩ := onTokens_ok_iff.1 ha
      obtain ⟨f, hf⟩ := hsound _ _ _ hrun
      exact ⟨f, hf.symm⟩
    · rintro ⟨f, hf⟩
      obtain ⟨a, ha, -⟩ := (hcomplete f).onTokens halike hf.symm
      exact ⟨a, ha⟩
  unique := hunique
  gives tokens a f ha hf := by
    obtain ⟨a', ha', hview'⟩ := (hcomplete f).onTokens halike hf.symm
    rw [ha] at ha'
    cases ha'
    rw [hview', hview]

/-- **Headers and imports are accepted exactly by their grammar**, and the tree that is
    read is that of the only derivation. -/
theorem headers_and_imports_derive :
    Derives import_ Import.unplaced ImportForm.kinds ImportForm.tree ∧
      Derives header ModuleHeader.unplaced HeaderForm.kinds HeaderForm.tree := by
  constructor
  · exact .of import_alike (fun _ _ _ => import_ok) importForm_yields ImportForm.unplaced_tree
      fun _ _ => ImportForm.eq_of_kinds
  · exact .of header_alike (fun _ _ _ => header_ok) headerForm_yields HeaderForm.unplaced_tree
      fun _ _ => HeaderForm.eq_of_kinds

end Reader

end ElmIntake
