import ElmIntake.Proofs.Syntax.Blame
import ElmIntake.Proofs.Syntax.Layout
import ElmIntake.Proofs.Syntax.Role

/-! # What is reported, and of which item

    A source that is not accepted gives a list of errors. Each of them is to be
    blamed on one item: on one that cannot be read, on one that stands in the wrong
    place, or on a signature that no definition follows, which is noticed only
    later.

    So the errors are a function of the items (`Item.reportsOf`). From one item to
    the next it keeps no more than whether imports are still allowed, and the
    signature that waits. Documentation comments have no part in it, nor has the
    signature that a definition is given.

    Main statements: `Module.errors_draftOf`, that these are the errors of a source,
    and `Item.isIn_reportsOf`, that each one points into its item. -/

namespace ElmIntake

/-! ## Failures -/

/-- The error of an outcome, if it is a failure. -/
def failure? {α : Type} : Except SyntaxError α → Option SyntaxError
  | .ok _ => none
  | .error e => some e

theorem failure?_map {α β : Type} (f : α → β) (x : Except SyntaxError α) :
    failure? (f <$> x) = failure? x := by
  cases x <;> rfl

theorem exists_of_failure? {α : Type} {x : Except SyntaxError α} (h : failure? x = none) :
    ∃ a, x = .ok a := by
  cases x with
  | ok a => exact ⟨a, rfl⟩
  | error e => cases h

theorem error_of_failure? {α : Type} {x : Except SyntaxError α} {e : SyntaxError}
    (h : failure? x = some e) : x = .error e := by
  cases x with
  | ok a => cases h
  | error e' => rw [Option.some.inj h]

/-! ## Declarations fail on their own account -/

/-- A declaration with what stands before it. -/
def Declaration.withContext (doc : Option (Located String)) (sig : Option Signature) :
    Declaration → Declaration
  | value d => .value { d with documentation := doc, signature := sig }
  | synonym d => .synonym { d with documentation := doc }
  | type d => .type { d with documentation := doc }
  | port d => .port d
  | operator d => .operator d

namespace Reader

variable {kind : ModuleKind} (doc : Option (Located String)) (sig : Option Signature)

theorem aliasDeclaration_eq_map :
    aliasDeclaration doc =
      (fun d => { d with documentation := doc }) <$> aliasDeclaration none := by
  simp only [aliasDeclaration, map_bind, map_pure]

theorem typeDeclaration_eq_map :
    typeDeclaration doc = (fun d => { d with documentation := doc }) <$> typeDeclaration none := by
  simp only [typeDeclaration, map_bind, map_pure]

theorem valueDeclaration_eq_map :
    valueDeclaration doc sig =
      (fun d => { d with documentation := doc, signature := sig }) <$>
        valueDeclaration none none := by
  simp only [valueDeclaration, map_bind, map_pure]

/-- What stands before a declaration is only put into it once it has been read. -/
theorem declaration_eq_map :
    declaration kind doc sig = Declaration.withContext doc sig <$> declaration kind none none := by
  unfold declaration
  rw [map_bind]
  congr 1
  funext c
  split
  · rfl
  · split
    · rw [map_bind]
      congr 1
      funext second
      split
      · rw [aliasDeclaration_eq_map]
        simp only [map_bind, map_pure, bind_map_left]
        rfl
      · rw [typeDeclaration_eq_map]
        simp only [map_bind, map_pure, bind_map_left]
        rfl
    · split
      · simp only [map_bind, map_pure]
        rfl
      · rfl
    · simp only [map_bind, map_pure]
      rfl
    · rw [valueDeclaration_eq_map]
      simp only [map_bind, map_pure, bind_map_left]
      rfl
    · rfl
    · rfl

theorem onTokens_map {α β : Type} (f : α → β) (reader : Reader α) (tokens : List Token) :
    (f <$> reader).onTokens tokens = f <$> reader.onTokens tokens := by
  unfold onTokens
  rw [StateT.run'_eq, StateT.run'_eq, StateT.run_map]
  cases reader.run (.start tokens) <;> rfl

theorem failure?_declaration (tokens : List Token) :
    failure? ((declaration kind doc sig).onTokens tokens) =
      failure? ((declaration kind none none).onTokens tokens) := by
  rw [declaration_eq_map, onTokens_map, failure?_map]

end Reader

/-! ## What is wrong with an item -/

namespace Item

/-- What an item is taken for. Whatever has no role is read as a declaration. -/
def taken (item : Item) : Role := item.role?.getD .declaration

/-- What is wrong with an item by itself, in a module of the kind `kind`: the error
    of the reader for what it is taken for. -/
def fault? (kind : ModuleKind) (item : Item) : Option SyntaxError :=
  match item.taken with
  | .doc => failure? (readDoc item)
  | .import_ => failure? (Reader.import_.onTokens item.tokens)
  | .header => failure? (Reader.header.onTokens item.tokens)
  | .signature => failure? (Reader.signature.onTokens item.tokens)
  | .declaration => failure? ((Reader.declaration kind none none).onTokens item.tokens)

variable {kind : ModuleKind} {item : Item} {e : SyntaxError}

theorem span_of_readDoc (h : readDoc item = .error e) : e.span.IsOf item.tokens := by
  unfold readDoc at h
  split at h
  · cases h
  · cases h
  · next t rest hrest =>
    cases h
    apply Span.IsOf.of_mem
    unfold tokens
    rw [hrest]
    exact List.mem_cons_of_mem _ List.mem_cons_self

/-- **What is wrong with an item** is wrong with tokens of its own. -/
theorem span_of_fault? (h : item.fault? kind = some e) : e.span.IsOf item.tokens := by
  unfold fault? at h
  split at h
  · exact span_of_readDoc (error_of_failure? h)
  · exact Reader.import_blames.start.onTokens (error_of_failure? h)
  · exact Reader.header_blames.start.onTokens (error_of_failure? h)
  · exact Reader.signature_blames.start.onTokens (error_of_failure? h)
  · exact (Reader.declaration_blames kind none none).onTokens (error_of_failure? h)

end Item

/-! ## Reports -/

/-- An error, with the number of the item to blame. -/
structure Report where
  index : Nat
  error : SyntaxError
  deriving Repr, DecidableEq

/-- Is the item to blame one of these, and is the error in it? -/
def Report.IsIn (items : List Item) (r : Report) : Prop :=
  ∃ item, items[r.index]? = some item ∧ r.error.span.IsOf item.tokens

/-- What the items so far mean for the reports of the next ones. -/
structure Standing where
  /-- Has a signature or a declaration been met? -/
  pastImports : Bool
  /-- The signature that waits, with the number of its item. -/
  waiting : Option (Nat × Signature)
  deriving Repr, DecidableEq

namespace Standing

/-- Before all items behind the header. -/
def start : Standing := ⟨false, none⟩

/-- The signature that goes on waiting when an item comes that starts with `first`. -/
def kept (s : Standing) (first : TokenKind) : Option (Nat × Signature) :=
  s.waiting.filter (first = .lowerName ·.2.name.node)

/-- The report of a signature that waits, unless the next item bears its name. -/
def unmet (s : Standing) (next? : Option TokenKind) : List Report :=
  match s.waiting with
  | none => []
  | some (k, sig) =>
    if next? = some (.lowerName sig.name.node) then []
    else [⟨k, ⟨.signatureWithoutDefinition sig.name.node, sig.span⟩⟩]

/-- What is wrong with an item, by itself or where it stands. -/
def own? (s : Standing) (kind : ModuleKind) (item : Item) : Option SyntaxError :=
  match item.taken with
  | .header => some ⟨.secondHeader, item.first.span⟩
  | .import_ =>
    if s.pastImports then some ⟨.importAfterDeclaration, item.first.span⟩ else item.fault? kind
  | _ => item.fault? kind

/-- All that is reported when the item with the number `k` comes. -/
def reports (s : Standing) (kind : ModuleKind) (k : Nat) (item : Item) : List Report :=
  s.unmet (some item.first.kind) ++ (s.own? kind item).toList.map (⟨k, ·⟩)

/-- Behind the item with the number `k`. -/
def after (s : Standing) (k : Nat) (item : Item) : Standing :=
  match item.taken with
  | .signature =>
    ⟨true,
      match Reader.signature.onTokens item.tokens with
      | .ok sig => some (k, sig)
      | .error _ => s.kept item.first.kind⟩
  | .declaration => ⟨true, none⟩
  | _ => ⟨s.pastImports, s.kept item.first.kind⟩

end Standing

namespace Item

/-- What is reported of items behind the header of a module of the kind `kind`, the
    first of which has the number `k`. -/
def reportsFrom (kind : ModuleKind) (s : Standing) (k : Nat) : List Item → List Report
  | [] => s.unmet none
  | item :: items => s.reports kind k item ++ reportsFrom kind (s.after k item) (k + 1) items

/-- What is reported of items that start in the first column, the first of which has
    the number `k`. -/
def reportsPlaced (k : Nat) (items : List Item) : List Report :=
  let (header, behind, inHeader) := takeHeader items
  inHeader.map (⟨k, ·⟩) ++
    reportsFrom header.kind .start (k + (items.length - behind.length)) behind

/-- All that is reported of the items of a source. -/
def reportsOf (items : List Item) : List Report :=
  let (placed, misplaced) := skipMisplaced items
  misplaced.map (⟨0, ·⟩) ++ reportsPlaced (items.length - placed.length) placed

end Item

/-! ## Reports point into their items -/

section

variable {kind : ModuleKind} {s : Standing} {all items : List Item} {item : Item} {k : Nat}

/-- Is the signature that waits one of these items? -/
def Standing.IsOf (all : List Item) (s : Standing) : Prop :=
  ∀ k sig, s.waiting = some (k, sig) →
    ∃ item, all[k]? = some item ∧ item.taken = .signature ∧ sig.span.IsOf item.tokens

namespace Standing

theorem isOf_start (all : List Item) : start.IsOf all := nofun

theorem IsOf.kept (h : s.IsOf all) (past : Bool) (first : TokenKind) :
    IsOf all ⟨past, s.kept first⟩ := by
  intro k sig hkept
  exact h k sig (Option.filter_eq_some_iff.1 hkept).1

theorem IsOf.after (h : s.IsOf all) (hitem : all[k]? = some item) :
    (s.after k item).IsOf all := by
  unfold Standing.after
  split
  · next htaken =>
    split
    · next sig hread =>
      rintro _ _ ⟨⟩
      have hspan := (Reader.signature_moves.onTokens hread).span
      exact ⟨item, hitem, htaken, item.tokens, List.cons_ne_nil _ _, List.infix_rfl, hspan⟩
    · exact h.kept true _
  · nofun
  · exact h.kept _ _

theorem IsOf.isIn_unmet (h : s.IsOf all) (next? : Option TokenKind) :
    ∀ r ∈ s.unmet next?, r.IsIn all := by
  intro r hr
  unfold unmet at hr
  split at hr
  · cases hr
  · next k sig hwaits =>
    split at hr
    · cases hr
    · rw [List.mem_singleton.1 hr]
      obtain ⟨item, hitem, -, hspan⟩ := h k sig hwaits
      exact ⟨item, hitem, hspan⟩

theorem span_of_own? {e : SyntaxError} (h : s.own? kind item = some e) :
    e.span.IsOf item.tokens := by
  have hfirst : item.first.span.IsOf item.tokens := .of_mem List.mem_cons_self
  unfold own? at h
  split at h
  · cases h
    exact hfirst
  · split at h
    · cases h
      exact hfirst
    · exact Item.span_of_fault? h
  · exact Item.span_of_fault? h

theorem IsOf.isIn_reports (h : s.IsOf all) (hitem : all[k]? = some item) :
    ∀ r ∈ s.reports kind k item, r.IsIn all := by
  intro r hr
  rcases List.mem_append.1 hr with hr | hr
  · exact h.isIn_unmet _ r hr
  · obtain ⟨e, he, rfl⟩ := List.mem_map.1 hr
    exact ⟨item, hitem, span_of_own? (Option.mem_toList.1 he)⟩

end Standing

namespace Item

/-- The item with the number `k`, where it and those behind it are left. -/
theorem getElem?_of_drop (h : all.drop k = item :: items) :
    all[k]? = some item ∧ all.drop (k + 1) = items := by
  rw [← List.head?_drop, ← List.tail_drop, h]
  exact ⟨rfl, rfl⟩

/-- The induction is on the items that are still to come. -/
theorem isIn_reportsFrom (h : s.IsOf all) (hitems : all.drop k = items) :
    ∀ r ∈ reportsFrom kind s k items, r.IsIn all := by
  induction items generalizing s k with
  | nil => exact h.isIn_unmet none
  | cons item items ih =>
    obtain ⟨hitem, hrest⟩ := getElem?_of_drop hitems
    intro r hr
    rcases List.mem_append.1 hr with hr | hr
    · exact h.isIn_reports hitem r hr
    · exact ih (h.after hitem) hrest r hr

/-- Where the items begin with a header, whether it can be read or not. -/
theorem reportsPlaced_of_header (h : startsWithHeader (item :: items) = true) :
    reportsPlaced k (item :: items) =
      (failure? (Reader.header.onTokens item.tokens)).toList.map (⟨k, ·⟩) ++
        reportsFrom (takeHeader (item :: items)).1.kind .start (k + 1) items := by
  unfold reportsPlaced takeHeader
  rw [h]
  dsimp only
  cases Reader.header.onTokens item.tokens <;> simp [failure?]

theorem reportsPlaced_of_not_header (h : startsWithHeader items = false) :
    reportsPlaced k items = reportsFrom .normal .start k items := by
  unfold reportsPlaced takeHeader
  rw [h]
  simp [ModuleHeader.implicit]

theorem isIn_reportsPlaced (hitems : all.drop k = items) :
    ∀ r ∈ reportsPlaced k items, r.IsIn all := by
  cases hstarts : startsWithHeader items with
  | false =>
    rw [reportsPlaced_of_not_header hstarts]
    exact isIn_reportsFrom (Standing.isOf_start all) hitems
  | true =>
    cases items with
    | nil => cases hstarts
    | cons item items =>
      obtain ⟨hitem, hrest⟩ := getElem?_of_drop hitems
      rw [reportsPlaced_of_header hstarts]
      intro r hr
      rcases List.mem_append.1 hr with hr | hr
      · obtain ⟨e, he, rfl⟩ := List.mem_map.1 hr
        have hread := error_of_failure? (Option.mem_toList.1 he)
        exact ⟨item, hitem, Reader.header_blames.start.onTokens hread⟩
      · exact isIn_reportsFrom (Standing.isOf_start all) hrest r hr

theorem skipMisplaced_of_placed (h : ∀ item ∈ items.head?, item.first.inFirstColumn = true) :
    skipMisplaced items = (items, []) := by
  cases items with
  | nil => rfl
  | cons item items => exact if_pos (h item rfl)

theorem skipMisplaced_of_misplaced (h : item.first.inFirstColumn = false) :
    skipMisplaced (item :: items) = (items, [⟨.notInFirstColumn, item.first.span⟩]) :=
  if_neg (by simp [h])

theorem reportsOf_of_placed (h : ∀ item ∈ items.head?, item.first.inFirstColumn = true) :
    reportsOf items = reportsPlaced 0 items := by
  unfold reportsOf
  rw [skipMisplaced_of_placed h]
  simp

theorem reportsOf_of_misplaced (h : item.first.inFirstColumn = false) :
    reportsOf (item :: items) =
      ⟨0, ⟨.notInFirstColumn, item.first.span⟩⟩ :: reportsPlaced 1 items := by
  unfold reportsOf
  rw [skipMisplaced_of_misplaced h]
  simp

/-- **Every report points into its item.** -/
theorem isIn_reportsOf (items : List Item) : ∀ r ∈ reportsOf items, r.IsIn items := by
  by_cases hplaced : ∀ item ∈ items.head?, item.first.inFirstColumn = true
  · rw [reportsOf_of_placed hplaced]
    exact isIn_reportsPlaced rfl
  · cases items with
    | nil => exact absurd (by simp) hplaced
    | cons item items =>
      rw [reportsOf_of_misplaced (by simpa using hplaced)]
      intro r hr
      rcases List.mem_cons.1 hr with rfl | hr
      · exact ⟨item, rfl, .of_mem List.mem_cons_self⟩
      · exact isIn_reportsPlaced rfl r hr

end Item

end

/-! ## Drafts hold what is reported -/

namespace Draft

/-- Does a draft stand where some items have left it? -/
structure Stands (s : Standing) (d : Draft) : Prop where
  pastImports : d.pastImports = s.pastImports
  pendingSignature : d.pendingSignature = s.waiting.map (·.2)

variable {kind : ModuleKind} {s : Standing} {d : Draft} {item : Item} {items : List Item} {k : Nat}

theorem errors_report (d : Draft) (e : SyntaxError) :
    (d.report e).errors.toList = d.errors.toList ++ [e] := Array.toList_push

/-- Each item is added as what it is taken for. -/
theorem add_eq (kind : ModuleKind) (d : Draft) (item : Item) :
    d.add kind item =
      let settled := d.settleSignature item.first.kind
      match item.taken with
      | .doc => settled.addDoc item
      | .import_ => settled.addImport item
      | .header => settled.report ⟨.secondHeader, item.first.span⟩
      | .signature => settled.addSignature item
      | .declaration => settled.addDeclaration kind item := by
  unfold add
  dsimp only
  split
  · next hfirst => simp [Item.taken, Item.role?, hfirst]
  · next hfirst => simp [Item.taken, Item.role?, hfirst]
  · next hfirst => simp [Item.taken, Item.role?, hfirst]
  · next hfirst => simp [Item.taken, Item.role?, hfirst]
  · next hfirst hsecond => simp [Item.taken, Item.role?, hfirst, hsecond]
  · next hfirst hsecond => simp [Item.taken, Item.role?, hfirst, hsecond]
  · next hdoc himport hmodule heffect hport hsignature =>
    have htaken : item.taken = .declaration := by
      unfold Item.taken Item.role?
      split <;> simp_all
    rw [htaken]

/-- The signature that waits is given up and reported, or goes on waiting. -/
theorem Stands.settle (h : Stands s d) (first : TokenKind) :
    Stands ⟨s.pastImports, s.kept first⟩ (d.settleSignature first) ∧
      (d.settleSignature first).errors.toList =
        d.errors.toList ++ (s.unmet (some first)).map (·.error) := by
  unfold settleSignature Standing.unmet
  have hpending := h.pendingSignature
  cases hwaiting : s.waiting with
  | none =>
    rw [hwaiting] at hpending
    rw [hpending]
    exact ⟨⟨h.pastImports, by simp [hpending, Standing.kept, hwaiting]⟩, by simp⟩
  | some w =>
    rw [hwaiting] at hpending
    rw [hpending]
    dsimp only [Option.map_some]
    by_cases hfirst : first = .lowerName w.2.name.node
    · rw [if_pos hfirst, if_pos (congrArg some hfirst)]
      refine ⟨⟨h.pastImports, ?_⟩, by simp⟩
      simp [hpending, Standing.kept, hwaiting, Option.filter, hfirst]
    · rw [if_neg hfirst, if_neg fun hsome => hfirst (Option.some.inj hsome)]
      refine ⟨⟨h.pastImports, ?_⟩, errors_report _ _⟩
      simp [reportSignature, report, Standing.kept, hwaiting, Option.filter, hfirst]

theorem Stands.addDoc (h : Stands s d) (item : Item) :
    Stands s (d.addDoc item) ∧
      (d.addDoc item).errors.toList =
        d.errors.toList ++ (failure? (readDoc item)).toList := by
  unfold Draft.addDoc
  cases readDoc item with
  | ok doc => exact ⟨⟨h.pastImports, h.pendingSignature⟩, by simp [failure?]⟩
  | error e => exact ⟨⟨h.pastImports, h.pendingSignature⟩, errors_report _ e⟩

theorem Stands.addImport (h : Stands s d) (item : Item) :
    Stands s (d.addImport item) ∧
      (d.addImport item).errors.toList = d.errors.toList ++
        if s.pastImports then [⟨.importAfterDeclaration, item.first.span⟩]
        else (failure? (Reader.import_.onTokens item.tokens)).toList := by
  unfold Draft.addImport
  by_cases hpast : d.pastImports = true
  · rw [if_pos hpast, if_pos (h.pastImports ▸ hpast)]
    exact ⟨⟨h.pastImports, h.pendingSignature⟩, errors_report _ _⟩
  · rw [if_neg hpast, if_neg (h.pastImports ▸ hpast)]
    cases Reader.import_.onTokens item.tokens with
    | ok i => exact ⟨⟨h.pastImports, h.pendingSignature⟩, by simp [failure?]⟩
    | error e => exact ⟨⟨h.pastImports, h.pendingSignature⟩, errors_report _ e⟩

/-- A signature that cannot be read leaves the one that waits where it is. -/
theorem Stands.addSignature (h : Stands s d) (k : Nat) (item : Item) :
    Stands
        ⟨true,
          match Reader.signature.onTokens item.tokens with
          | .ok sig => some (k, sig)
          | .error _ => s.waiting⟩ (d.addSignature item) ∧
      (d.addSignature item).errors.toList = d.errors.toList ++
        (failure? (Reader.signature.onTokens item.tokens)).toList := by
  unfold Draft.addSignature
  cases Reader.signature.onTokens item.tokens with
  | ok sig => exact ⟨⟨rfl, rfl⟩, by simp [failure?]⟩
  | error e => exact ⟨⟨rfl, h.pendingSignature⟩, errors_report _ e⟩

/-- Nothing waits behind a declaration, whether it can be read or not. -/
theorem stands_addDeclaration (kind : ModuleKind) (d : Draft) (item : Item) :
    Stands ⟨true, none⟩ (d.addDeclaration kind item) ∧
      (d.addDeclaration kind item).errors.toList = d.errors.toList ++
        (failure? ((Reader.declaration kind none none).onTokens item.tokens)).toList := by
  rw [← Reader.failure?_declaration d.pendingDoc d.pendingSignature]
  unfold Draft.addDeclaration
  dsimp only
  cases (Reader.declaration kind d.pendingDoc d.pendingSignature).onTokens item.tokens with
  | ok declaration => exact ⟨⟨rfl, rfl⟩, by simp [failure?]⟩
  | error e => exact ⟨⟨rfl, rfl⟩, errors_report _ e⟩

/-- **The step.** -/
theorem Stands.add (h : Stands s d) (kind : ModuleKind) (k : Nat) (item : Item) :
    Stands (s.after k item) (d.add kind item) ∧
      (d.add kind item).errors.toList =
        d.errors.toList ++ (s.reports kind k item).map (·.error) := by
  obtain ⟨hsettled, herrors⟩ := h.settle item.first.kind
  have hreports (own : Option SyntaxError) (hown : s.own? kind item = own) :
      (s.reports kind k item).map (·.error) =
        (s.unmet (some item.first.kind)).map (·.error) ++ own.toList := by
    subst hown
    simp [Standing.reports, Function.comp_def]
  rw [add_eq]
  unfold Standing.after
  cases htaken : item.taken with
  | doc =>
    obtain ⟨hstands, hadd⟩ := hsettled.addDoc item
    refine ⟨hstands, ?_⟩
    rw [hadd, herrors, hreports _ rfl, List.append_assoc]
    simp [Standing.own?, Item.fault?, htaken]
  | import_ =>
    obtain ⟨hstands, hadd⟩ := hsettled.addImport item
    refine ⟨hstands, ?_⟩
    rw [hadd, herrors, hreports _ rfl, List.append_assoc]
    simp only [Standing.own?, Item.fault?, htaken]
    split <;> simp
  | header =>
    refine ⟨⟨hsettled.pastImports, hsettled.pendingSignature⟩, ?_⟩
    dsimp only
    rw [errors_report, herrors, hreports _ rfl, List.append_assoc]
    simp [Standing.own?, htaken]
  | signature =>
    obtain ⟨hstands, hadd⟩ := hsettled.addSignature k item
    refine ⟨hstands, ?_⟩
    rw [hadd, herrors, hreports _ rfl, List.append_assoc]
    simp [Standing.own?, Item.fault?, htaken]
  | declaration =>
    obtain ⟨hstands, hadd⟩ := stands_addDeclaration kind (d.settleSignature item.first.kind) item
    refine ⟨hstands, ?_⟩
    rw [hadd, herrors, hreports _ rfl, List.append_assoc]
    simp [Standing.own?, Item.fault?, htaken]

theorem Stands.finish (h : Stands s d) :
    d.finish.errors.toList = d.errors.toList ++ (s.unmet none).map (·.error) := by
  unfold Draft.finish Standing.unmet
  rw [h.pendingSignature]
  cases s.waiting with
  | none => simp
  | some w => exact errors_report _ _

/-- **The run.** The induction is on the items that are still to be read. -/
theorem Stands.errors_foldl (h : Stands s d) (kind : ModuleKind) (k : Nat) :
    (items.foldl (Draft.add kind) d).finish.errors.toList =
      d.errors.toList ++ (Item.reportsFrom kind s k items).map (·.error) := by
  induction items generalizing s d k with
  | nil => exact h.finish
  | cons item items ih =>
    obtain ⟨hstands, hadd⟩ := h.add kind k item
    rw [List.foldl_cons, ih hstands, hadd, Item.reportsFrom, List.map_append, List.append_assoc]

end Draft

/-! ## Whole sources -/

/-- The documentation of the module is read like any other comment at the start. -/
theorem errors_takeDoc (kind : ModuleKind) (k : Nat) (items : List Item) :
    (Item.reportsFrom kind .start k items).map (·.error) =
      (takeDoc items).2.2 ++
        (Item.reportsFrom kind .start (k + (items.length - (takeDoc items).2.1.length))
          (takeDoc items).2.1).map (·.error) := by
  cases items with
  | nil => simp [takeDoc]
  | cons item items =>
    unfold takeDoc
    dsimp only
    split
    · next text hfirst =>
      have htaken : item.taken = .doc := by simp [Item.taken, Item.role?, hfirst]
      have hafter : Standing.start.after k item = .start := by
        simp [Standing.after, htaken, Standing.start, Standing.kept]
      rw [Item.reportsFrom, hafter, List.map_append]
      have hown : ((Standing.start.reports kind k item).map (·.error)) =
          (failure? (readDoc item)).toList := by
        simp [Standing.reports, Standing.own?, Item.fault?, htaken, Standing.unmet,
          Standing.start, Function.comp_def]
      rw [hown]
      cases readDoc item <;> simp [failure?]
    · simp

namespace Module

/-- **The errors of a source** are those that are reported of its items. -/
theorem errors_draftOf (tokens : List Token) :
    (draftOf tokens).2.2.errors.toList =
      (Item.reportsOf (itemsOf tokens)).map (·.error) := by
  unfold draftOf Item.reportsOf Item.reportsPlaced
  rcases skipMisplaced (itemsOf tokens) with ⟨items, misplaced⟩
  dsimp only
  rcases takeHeader items with ⟨header, behind, inHeader⟩
  dsimp only
  generalize (itemsOf tokens).length - items.length + (items.length - behind.length) = k
  have hstands (errors : List SyntaxError) : Draft.Stands .start (.start errors) := ⟨rfl, rfl⟩
  rw [(hstands _).errors_foldl _ (k + (behind.length - (takeDoc behind).2.1.length)),
    List.map_append, List.map_append, errors_takeDoc header.kind k behind]
  simp [Draft.start, Function.comp_def]

variable {source : String} {tokens : List Token}

/-- **The diagnostics of a source** that can be cut into tokens. -/
theorem diagnostics_ofSource (h : Token.ofSource source = .ok tokens) :
    (Outcome.ofSource source).diagnostics =
      (Item.reportsOf (itemsOf tokens)).map (·.error.diagnostic) := by
  have herrors := errors_draftOf tokens
  have hmap := congrArg (List.map SyntaxError.diagnostic) herrors
  rw [List.map_map] at hmap
  unfold Outcome.ofSource Module.ofSource
  rw [h]
  dsimp only
  rw [ofTokens_eq]
  dsimp only
  by_cases hempty : (draftOf tokens).2.2.errors.isEmpty = true
  · rw [if_pos hempty]
    rw [Array.isEmpty_iff.1 hempty] at hmap
    exact hmap
  · rw [if_neg hempty]
    exact hmap

end Module

end ElmIntake
