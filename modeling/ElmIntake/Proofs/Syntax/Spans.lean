import ElmIntake.Proofs.Syntax.PlacedItems
import ElmIntake.Proofs.Syntax.TopLevel

/-! # Places in a module point at what they name

    The bodies of definitions are kept as places only, and whoever wants to see
    them, or a name in its context, cuts the source there. So a place has to be
    right to the byte.

    What stands at the places of tokens is known (`Token.laid_of_ofSource`), and
    the places in a module are those of tokens or of rows of them (`PlacedItems`).
    The places of whole items follow one another as the items do.

    Main statement: `Module.ofSource_pointsInto`. -/

namespace ElmIntake

/-! ## Rows of tokens -/

/-- Does the span lie inside another one? -/
def Span.IsWithin (s whole : Span) : Prop := whole.start ≤ s.start ∧ s.stop ≤ whole.stop

namespace Laid

variable {source : String} {tokens part : List Token} {t : Token}

theorem row (h : Laid source tokens) (hrow : part <:+: tokens) : Laid source part where
  slice := fun t ht => h.slice t (hrow.subset ht)
  nonempty := fun t ht => h.nonempty t (hrow.subset ht)
  ordered := h.ordered.sublist hrow.sublist

/-- From the first to the last one of some tokens in order. -/
theorem spanOf_eq {rest : List Token} (h : Laid source (t :: rest)) :
    Reader.spanOf (t :: rest) =
      ⟨t.span.start, ((t :: rest).getLast (List.cons_ne_nil _ _)).span.stop, t.span.line,
        t.span.column⟩ := by
  cases rest with
  | nil => exact Reader.spanOf_singleton t
  | cons next rest =>
    have hlast : ((next :: rest).getLast?.map (·.span)).getD t.span =
        ((next :: rest).getLast (List.cons_ne_nil _ _)).span := by
      rw [List.getLast?_eq_some_getLast (List.cons_ne_nil _ _)]
      rfl
    show t.span.combine (((next :: rest).getLast?.map (·.span)).getD t.span) = _
    rw [hlast, List.getLast_cons (List.cons_ne_nil _ _)]
    have hmem := List.getLast_mem (List.cons_ne_nil next rest)
    generalize (next :: rest).getLast (List.cons_ne_nil _ _) = last at hmem
    -- The last token lies behind the first one as a whole.
    have hbehind := (List.pairwise_cons.1 h.ordered).1 last hmem
    have hfirst := h.nonempty t List.mem_cons_self
    have hlastSize := h.nonempty last (List.mem_cons_of_mem _ hmem)
    rw [UInt32.le_iff_toNat_le] at hbehind
    rw [UInt32.lt_iff_toNat_lt] at hfirst hlastSize
    have hstart : t.span.start ≤ last.span.start := by
      rw [UInt32.le_iff_toNat_le]
      omega
    have hstop : t.span.stop ≤ last.span.stop := by
      rw [UInt32.le_iff_toNat_le]
      omega
    have hmin : min t.span.start last.span.start = t.span.start := if_pos hstart
    have hmax : max t.span.stop last.span.stop = last.span.stop := if_pos hstop
    unfold Span.combine
    rw [if_pos hstart, hmin, hmax]

theorem first_le (h : Laid source tokens) (ht : t ∈ tokens) :
    (Reader.spanOf tokens).start ≤ t.span.start := by
  cases tokens with
  | nil => cases ht
  | cons first rest =>
    rw [h.spanOf_eq]
    rcases List.mem_cons.1 ht with rfl | hrest
    · exact UInt32.le_refl _
    · have hfirst := h.nonempty first List.mem_cons_self
      have hbehind := (List.pairwise_cons.1 h.ordered).1 t hrest
      rw [UInt32.le_iff_toNat_le] at hbehind ⊢
      rw [UInt32.lt_iff_toNat_lt] at hfirst
      show first.span.start.toNat ≤ _
      omega

theorem le_last (h : Laid source tokens) (ht : t ∈ tokens) :
    t.span.stop ≤ (Reader.spanOf tokens).stop := by
  cases tokens with
  | nil => cases ht
  | cons first rest =>
    rw [h.spanOf_eq]
    show t.span.stop ≤ ((first :: rest).getLast (List.cons_ne_nil _ _)).span.stop
    have hsplit := List.dropLast_concat_getLast (List.cons_ne_nil first rest)
    have hordered := h.ordered
    have hlastSize := h.nonempty _ (List.getLast_mem (List.cons_ne_nil first rest))
    rw [← hsplit] at ht hordered
    generalize (first :: rest).getLast (List.cons_ne_nil _ _) = last at *
    rcases List.mem_append.1 ht with hfront | hend
    · have hbehind := (List.pairwise_append.1 hordered).2.2 t hfront last List.mem_cons_self
      rw [UInt32.le_iff_toNat_le] at hbehind ⊢
      rw [UInt32.lt_iff_toNat_lt] at hlastSize
      omega
    · rw [List.mem_singleton.1 hend]
      exact UInt32.le_refl _

/-- A row of tokens lies inside every longer one. -/
theorem spanOf_isWithin (h : Laid source tokens) (hne : part ≠ []) (hrow : part <:+: tokens) :
    (Reader.spanOf part).IsWithin (Reader.spanOf tokens) := by
  cases part with
  | nil => exact absurd rfl hne
  | cons first rest =>
    rw [(h.row hrow).spanOf_eq]
    constructor
    · exact h.first_le (hrow.subset List.mem_cons_self)
    · exact h.le_last (hrow.subset (List.getLast_mem _))

theorem isWithin_of_isOf {s : Span} (h : Laid source tokens) (hs : s.IsOf tokens) :
    s.IsWithin (Reader.spanOf tokens) := by
  obtain ⟨part, hne, hrow, rfl⟩ := hs
  exact h.spanOf_isWithin hne hrow

theorem spanOf_nonempty (h : Laid source tokens) (hne : tokens ≠ []) :
    (Reader.spanOf tokens).start < (Reader.spanOf tokens).stop := by
  cases tokens with
  | nil => exact absurd rfl hne
  | cons first rest =>
    have hsize := h.nonempty first List.mem_cons_self
    have hstart := h.first_le List.mem_cons_self
    have hstop := h.le_last List.mem_cons_self
    rw [UInt32.lt_iff_toNat_lt] at hsize ⊢
    rw [UInt32.le_iff_toNat_le] at hstart hstop
    omega

end Laid

/-! ## The places in a module -/

/-- The signature of a declaration; only definitions have one. -/
def Declaration.signature? : Declaration → Option Signature
  | value d => d.signature
  | _ => none

/-- The place of a declaration, behind that of its signature. -/
def Declaration.topSpans (d : Declaration) : List Span :=
  d.signature?.toList.map (·.span) ++ [d.span]

namespace Module

/-- The places of what stands at the top level: the header, if there is one, the
    documentation of the module, imports, and declarations behind their
    signatures. -/
def topSpans (m : Module) : List Span :=
  (if m.header.isImplicit then [] else [m.header.span]) ++ m.documentation.toList.map (·.span) ++
    m.imports.map (·.span) ++ m.declarations.flatMap Declaration.topSpans

end Module

/-! ## Items and their places -/

namespace Item

variable {source : String} {items before : List Item} {item : Item}

/-- The place of an item. -/
def span (item : Item) : Span := Reader.spanOf item.tokens

theorem tokens_infix_allTokens (h : item ∈ items) : item.tokens <:+: allTokens items := by
  have hrow := List.infix_of_mem_flatten (List.mem_map_of_mem (f := tokens) h)
  rwa [← List.flatMap_def] at hrow

/-- Items come one behind the other. -/
theorem pairwise_span (h : Laid source (allTokens items)) :
    (items.map span).Pairwise fun a b => a.stop ≤ b.start := by
  have hordered := (List.pairwise_flatMap.1 h.ordered).2
  rw [List.pairwise_map]
  refine hordered.imp_of_mem ?_
  intro a b ha hb hab
  have hspan := (h.row (tokens_infix_allTokens ha)).spanOf_eq
  have hspan' := (h.row (tokens_infix_allTokens hb)).spanOf_eq
  show (Reader.spanOf a.tokens).stop ≤ (Reader.spanOf b.tokens).start
  unfold tokens at hspan hspan' ⊢
  rw [hspan, hspan']
  exact hab _ (List.getLast_mem _) _ List.mem_cons_self

/-- A declaration, behind the signature that waits for it. -/
def withSignature (s : List Item × Item) : List Item :=
  (s.1.head?.filter (·.role? = some .signature)).toList ++ [s.2]

theorem mem_situated {s : List Item × Item} (h : s ∈ situated before items) :
    s.2 ∈ items ∧ ∀ i ∈ s.1, i ∈ before ∨ i ∈ items := by
  induction items generalizing before with
  | nil => cases h
  | cons first items ih =>
    rcases List.mem_cons.1 h with rfl | h
    · exact ⟨List.mem_cons_self, fun i hi => .inl hi⟩
    · obtain ⟨hitem, hbefore⟩ := ih h
      refine ⟨List.mem_cons_of_mem _ hitem, ?_⟩
      intro i hi
      rcases hbefore i hi with hi | hi
      · rcases List.mem_cons.1 hi with rfl | hi
        · exact .inr List.mem_cons_self
        · exact .inl hi
      · exact .inr (List.mem_cons_of_mem _ hi)

theorem mem_declarations {s : List Item × Item} (h : s ∈ declarations items) :
    s.2 ∈ items ∧ ∀ i ∈ s.1, i ∈ items := by
  obtain ⟨hitem, hbefore⟩ := mem_situated (List.mem_filter.1 h).1
  refine ⟨hitem, ?_⟩
  intro i hi
  rcases hbefore i hi with hi | hi
  · cases hi
  · exact hi

/-- Signatures and declarations, as a role. -/
def isDefining (item : Item) : Bool :=
  item.role? = some .signature ∨ item.role? = some .declaration

/-- The items of signatures and declarations are there in order, each one at most
    once. The induction is on the items that are still to come; the item before them
    may be a signature for the first one. -/
theorem withSignature_sublist (before items : List Item) :
    (((situated before items).filter (·.2.role? = some .declaration)).flatMap
      withSignature).Sublist
      ((before.head?.filter (·.role? = some .signature)).toList ++ items.filter isDefining) := by
  induction items generalizing before with
  | nil => exact List.nil_sublist _
  | cons item items ih =>
    have hrest := ih (item :: before)
    rw [situated]
    by_cases hdeclaration : item.role? = some .declaration
    · have hnone : ((item :: before).head?.filter (·.role? = some .signature)).toList = [] := by
        simp [hdeclaration]
      have hdefining : item.isDefining = true := by simp [isDefining, hdeclaration]
      rw [hnone, List.nil_append] at hrest
      rw [List.filter_cons_of_pos (by simpa using hdeclaration), List.flatMap_cons,
        List.filter_cons_of_pos hdefining]
      unfold withSignature
      rw [List.append_assoc]
      exact List.Sublist.append (List.Sublist.refl _) (hrest.cons_cons item)
    · rw [List.filter_cons_of_neg (by simpa using hdeclaration)]
      refine hrest.trans (List.sublist_append_of_sublist_right ?_)
      by_cases hsignature : item.role? = some .signature
      · have hdefining : item.isDefining = true := by simp [isDefining, hsignature]
        rw [List.filter_cons_of_pos hdefining]
        simp [Option.filter, hsignature]
      · have hother : ¬ item.isDefining = true := by simp [isDefining, hsignature, hdeclaration]
        rw [List.filter_cons_of_neg hother]
        simp [Option.filter, hsignature]

/-- Where imports come first, imports and then definitions are items in order. -/
theorem imports_append_sublist (h : items.Pairwise MayPrecede) :
    (items.filter (·.role? = some .import_) ++ items.filter isDefining).Sublist items := by
  induction items with
  | nil => exact List.nil_sublist _
  | cons item items ih =>
    obtain ⟨hfirst, hrest⟩ := List.pairwise_cons.1 h
    by_cases himport : item.role? = some .import_
    · have hother : ¬ item.isDefining = true := by simp [isDefining, himport]
      rw [List.filter_cons_of_pos (by simpa using himport), List.filter_cons_of_neg hother]
      exact (ih hrest).cons_cons item
    · rw [List.filter_cons_of_neg (by simpa using himport)]
      by_cases hdefining : item.isDefining = true
      · -- No import comes behind a definition.
        have hnone : items.filter (·.role? = some .import_) = [] := by
          rw [List.filter_eq_nil_iff]
          intro i hi
          have hprecede := hfirst i hi (by simpa [isDefining] using hdefining)
          simpa using hprecede
        rw [hnone, List.nil_append, List.filter_cons_of_pos hdefining]
        exact List.filter_sublist.cons_cons item
      · rw [List.filter_cons_of_neg hdefining]
        exact (ih hrest).cons item

end Item

/-! ## From items to the module -/

/-- What a list is made of one by one comes from somewhere in the other list. -/
theorem exists_of_mem_forall₂ {α β : Type} {R : α → β → Prop} {xs : List α} {ys : List β} {y : β}
    (h : List.Forall₂ R xs ys) (hy : y ∈ ys) : ∃ x ∈ xs, R x y := by
  induction h with
  | nil => cases hy
  | @cons x y' xs ys hfirst _ ih =>
    rcases List.mem_cons.1 hy with rfl | hy
    · exact ⟨x, List.mem_cons_self, hfirst⟩
    · obtain ⟨x', hx', hR⟩ := ih hy
      exact ⟨x', List.mem_cons_of_mem _ hx', hR⟩

namespace Item

variable {source : String} {items before : List Item} {item : Item}

theorem exists_of_waitingSignature {s : Signature} (h : waitingSignature before = some s) :
    ∃ i ∈ before.head?.filter (·.role? = some .signature),
      Reader.signature.onTokens i.tokens = .ok s := by
  obtain ⟨i, hi, hread⟩ := Option.bind_eq_some_iff.1 h
  refine ⟨i, hi, ?_⟩
  cases hresult : Reader.signature.onTokens i.tokens with
  | error e =>
    rw [hresult] at hread
    cases hread
  | ok s' =>
    rw [hresult] at hread
    cases hread
    rfl

/-- A documentation comment is the only token of its item. -/
theorem token_of_doc? {doc : Located String} (h : item.doc? = some doc) :
    ∃ t, item.tokens = [t] ∧ t.kind = .doc doc.node ∧ t.span = doc.span := by
  obtain ⟨first, rest⟩ := item
  unfold doc? at h
  split at h
  · next hkind hrest =>
    cases h
    change rest = [] at hrest
    exact ⟨first, by rw [hrest]; rfl, hkind, rfl⟩
  · cases h

theorem signature_of_readsAs {kind : ModuleKind} {d : Declaration} {s : Signature}
    (h : ReadsAs kind before item d) (hs : d.signature? = some s) :
    waitingSignature before = some s := by
  have htakes := h.2
  cases d with
  | value v => rw [← htakes.2]; exact hs
  | _ => cases hs

theorem signature_isPlacedIn {s : Signature}
    (h : Reader.signature.onTokens item.tokens = .ok s) :
    Reader.SignatureIsPlacedIn item.tokens s :=
  Reader.signature_moves.onTokens h

theorem declaration_isPlacedIn {kind : ModuleKind} {d : Declaration}
    (h : ReadsAs kind before item d) : d.IsPlacedIn item.tokens :=
  (Reader.declaration_moves _ _ _).onTokens h.1

/-- The place of a declaration, and that of its signature, are those of items. -/
theorem topSpans_sublist {kind : ModuleKind} {d : Declaration} {s : List Item × Item}
    (h : ReadsAs kind s.1 s.2 d) : d.topSpans.Sublist ((withSignature s).map span) := by
  unfold Declaration.topSpans withSignature
  rw [List.map_append]
  have hspan : d.span = s.2.span := (declaration_isPlacedIn h).span
  refine List.Sublist.append ?_ (by rw [hspan]; exact List.Sublist.refl _)
  cases hsignature : d.signature? with
  | none => exact List.nil_sublist _
  | some sig =>
    obtain ⟨i, hi, hread⟩ := exists_of_waitingSignature (signature_of_readsAs h hsignature)
    rw [Option.mem_def.1 hi]
    show List.Sublist [sig.span] [i.span]
    rw [(signature_isPlacedIn hread).span]
    exact List.Sublist.refl _

end Item

namespace Module

variable {source : String} {m : Module} {items stream : List Item}

theorem map_span_imports {is : List Import} {items : List Item}
    (h : List.Forall₂ (fun item i => Reader.import_.onTokens item.tokens = .ok i) items is) :
    is.map (·.span) = items.map Item.span := by
  induction h with
  | nil => rfl
  | cons hread _ ih =>
    rw [List.map_cons, List.map_cons, ih]
    exact congrArg (· :: _) (Reader.import_moves.onTokens hread).span

theorem flatMap_topSpans_sublist {kind : ModuleKind} {ds : List Declaration}
    {ss : List (List Item × Item)}
    (h : List.Forall₂ (fun s d => Item.ReadsAs kind s.1 s.2 d) ss ds) :
    (ds.flatMap Declaration.topSpans).Sublist ((ss.flatMap Item.withSignature).map Item.span) := by
  induction h with
  | nil => exact List.Sublist.refl _
  | cons hreads _ ih =>
    rw [List.flatMap_cons, List.flatMap_cons, List.map_append]
    exact (Item.topSpans_sublist hreads).append ih

/-- The first item is taken away, if it has a role, together with its place. -/
theorem sublist_behind (role : Role) {items : List Item} {spans rest : List Span}
    (hspans : ∀ item ∈ items.head?, item.role? = some role → spans.Sublist [item.span])
    (hnone : (∀ item ∈ items.head?, item.role? ≠ some role) → spans = [])
    (hrest : rest.Sublist ((Item.behind role items).map Item.span)) :
    (spans ++ rest).Sublist (items.map Item.span) := by
  cases items with
  | nil =>
    rw [hnone nofun]
    exact hrest
  | cons first items =>
    by_cases hrole : first.role? = some role
    · rw [Item.behind_of_role hrole] at hrest
      have hfirst := hspans first rfl hrole
      exact hfirst.append hrest
    · rw [Item.behind_of_ne hrole] at hrest
      rw [hnone (by rintro item ⟨⟩; exact hrole)]
      exact hrest

theorem behind_sublist (role : Role) (items : List Item) :
    (Item.behind role items).Sublist items := by
  cases items with
  | nil => exact List.Sublist.refl _
  | cons first items =>
    by_cases hrole : first.role? = some role
    · rw [Item.behind_of_role hrole]
      exact List.sublist_cons_self first items
    · rw [Item.behind_of_ne hrole]

/-- **What stands at the top level are items**, in order. -/
theorem Accounts.topSpans_sublist (h : m.Accounts items) :
    m.topSpans.Sublist (items.map Item.span) := by
  -- Behind the header and the comment there are imports first, and then declarations.
  have hbody : (m.imports.map (·.span) ++ m.declarations.flatMap Declaration.topSpans).Sublist
      ((Item.behind .doc (Item.behind .header items)).map Item.span) := by
    have himports := h.imports
    rw [← Item.filter_behind (by decide : Role.import_ ≠ .header),
      ← Item.filter_behind (by decide : Role.import_ ≠ .doc)] at himports
    have hordered := h.ordered.sublist
      ((behind_sublist .doc _).trans (behind_sublist .header items))
    have hdeclarations := h.declarations
    generalize Item.behind .doc (Item.behind .header items) = body at *
    rw [map_span_imports himports]
    have hdefinitions := (flatMap_topSpans_sublist hdeclarations).trans
      ((Item.withSignature_sublist [] body).map Item.span)
    refine ((List.Sublist.refl _).append hdefinitions).trans ?_
    rw [← List.map_append]
    exact (Item.imports_append_sublist hordered).map Item.span
  unfold topSpans
  rw [List.append_assoc, List.append_assoc]
  -- The header and the comment come first, if there are any.
  apply sublist_behind .header
  · intro item hitem hrole
    have hplaced : Reader.HeaderIsPlacedIn item.tokens m.header :=
      Reader.header_moves.onTokens (h.header item hitem hrole)
    split
    · exact List.nil_sublist _
    · rw [hplaced.span]
      exact List.Sublist.refl _
  · intro hnone
    rw [h.implicit hnone]
    rfl
  apply sublist_behind .doc
  · intro item hitem hrole
    rw [h.documentation, Option.mem_def.1 hitem]
    cases hdoc : item.doc? with
    | none => simp [Option.filter, hrole, hdoc]
    | some doc =>
      obtain ⟨t, htokens, -, hspan⟩ := Item.token_of_doc? hdoc
      have hitemSpan : item.span = doc.span := by
        unfold Item.span
        rw [htokens, Reader.spanOf_singleton, hspan]
      simp [Option.filter, hrole, hdoc, hitemSpan]
  · intro hnone
    rw [h.documentation]
    cases hhead : (Item.behind .header items).head? with
    | none => rfl
    | some item => simp [Option.filter, hnone item hhead]
  · exact hbody

end Module

end ElmIntake
