import ElmIntake.Proofs.Syntax.BrokenItem

/-! # Broken items are isolated

    An item that cannot be read is reported and left out, and reading goes on behind
    it. So an error in one item adds one diagnostic to a source, in this item, and
    changes none of the others: none gets lost, and none comes up that is due to the
    first error only.

    This is a property of two sources, which agree in all items but one. The single
    item that others depend on, beyond a signature for the item behind it, is the
    header of a port module: without it no port declaration is in place.

    Main statement: `Module.broken_item_isolated`. -/

namespace ElmIntake

/-! ## Items that agree but for one -/

namespace Item

variable {items items' : List Item} {i : Nat}

/-- Do two lists of items have tokens of the same kinds, but for the items with the
    number `i`, of which only the first two tokens are of the same kinds? -/
structure AgreeBut (i : Nat) (items items' : List Item) : Prop where
  before : (items.take i).map (kinds ·.tokens) = (items'.take i).map (kinds ·.tokens)
  broken : i < items.length ∧ items[i]?.map beginning = items'[i]?.map beginning
  after : (items.drop (i + 1)).map (kinds ·.tokens) = (items'.drop (i + 1)).map (kinds ·.tokens)

instance : Decidable (AgreeBut i items items') :=
  decidable_of_iff
    ((items.take i).map (kinds ·.tokens) = (items'.take i).map (kinds ·.tokens) ∧
      (i < items.length ∧ items[i]?.map beginning = items'[i]?.map beginning) ∧
      (items.drop (i + 1)).map (kinds ·.tokens) = (items'.drop (i + 1)).map (kinds ·.tokens))
    ⟨fun ⟨before, broken, after⟩ => ⟨before, broken, after⟩,
      fun h => ⟨h.before, h.broken, h.after⟩⟩

/-- Does the first item start in the first column? What stands before all tokens of the
    first column makes up an item, too. -/
def startsPlaced? (items : List Item) : Option Bool :=
  items.head?.map (·.first.inFirstColumn)

theorem sameLayout_of_kinds (h : items.map (kinds ·.tokens) = items'.map (kinds ·.tokens))
    (hplaced : ∀ a ∈ items, a.first.inFirstColumn = true)
    (hplaced' : ∀ a ∈ items', a.first.inFirstColumn = true) :
    List.Forall₂ SameLayout items items' := by
  induction items generalizing items' with
  | nil =>
    rw [List.map_eq_nil_iff.1 h.symm]
    exact .nil
  | cons item items ih =>
    obtain ⟨item', items', rfl, hkinds, hrest⟩ := List.map_eq_cons_iff.1 h.symm
    obtain ⟨hfirst, hbehind⟩ := List.forall_mem_cons.1 hplaced
    obtain ⟨hfirst', hbehind'⟩ := List.forall_mem_cons.1 hplaced'
    exact .cons ⟨hkinds.symm, hfirst.trans hfirst'.symm⟩ (ih hrest.symm hbehind hbehind')

/-- Only the first items can differ in whether they start in the first column. -/
theorem AgreeBut.cases (h : AgreeBut i items items')
    (htail : ∀ a ∈ items.tail, a.first.inFirstColumn = true)
    (htail' : ∀ a ∈ items'.tail, a.first.inFirstColumn = true)
    (hhead : startsPlaced? items = startsPlaced? items') :
    ∃ before item after before' item' after',
      items = before ++ item :: after ∧ items' = before' ++ item' :: after' ∧ before.length = i ∧
        List.Forall₂ SameLayout before before' ∧ List.Forall₂ SameLayout after after' ∧
        item.beginning = item'.beginning ∧
        item.first.inFirstColumn = item'.first.inFirstColumn := by
  obtain ⟨hlength, hbegin⟩ := h.broken
  have hitem : items[i]? = some items[i] := List.getElem?_eq_getElem hlength
  rw [hitem] at hbegin
  obtain ⟨item', hitem', hbeginning⟩ := Option.map_eq_some_iff.1 hbegin.symm
  have hbefore := h.before
  have hafter := h.after
  have hsplit : items = items.take i ++ items[i] :: items.drop (i + 1) := by simp
  have hsplit' : items' = items'.take i ++ item' :: items'.drop (i + 1) := by
    obtain ⟨-, rfl⟩ := List.getElem?_eq_some_iff.1 hitem'
    simp
  refine ⟨_, _, _, _, _, _, hsplit, hsplit', by simp; omega, ?_⟩
  generalize items.take i = before at hsplit hbefore ⊢
  generalize items'.take i = before' at hsplit' hbefore ⊢
  generalize items.drop (i + 1) = after at hsplit hafter ⊢
  generalize items'.drop (i + 1) = after' at hsplit' hafter ⊢
  generalize items[i] = item at hsplit hbeginning ⊢
  rw [hsplit] at htail hhead
  rw [hsplit'] at htail' hhead
  -- Where no item stands before the one that differs, it is the head itself.
  cases before with
  | nil =>
    obtain rfl := List.map_eq_nil_iff.1 hbefore.symm
    refine ⟨.nil, sameLayout_of_kinds hafter htail htail', hbeginning.symm, ?_⟩
    simpa [startsPlaced?] using hhead
  | cons first before =>
    obtain ⟨first', before', rfl, hkinds, hrest⟩ := List.map_eq_cons_iff.1 hbefore.symm
    simp only [List.cons_append, List.tail_cons, List.forall_mem_append,
      List.forall_mem_cons] at htail htail'
    obtain ⟨hplaced, hitem, hbehind⟩ := htail
    obtain ⟨hplaced', hitem', hbehind'⟩ := htail'
    have hcolumn : first.first.inFirstColumn = first'.first.inFirstColumn := by
      simpa [startsPlaced?] using hhead
    exact ⟨.cons ⟨hkinds.symm, hcolumn⟩ (sameLayout_of_kinds hrest.symm hplaced hplaced'),
      sameLayout_of_kinds hafter hbehind hbehind', hbeginning.symm, hitem.trans hitem'.symm⟩

/-- Do the reports say of each diagnostic in which of the items it is? -/
structure Explains (items : List Item) (reports : List Report) (ds : List Diagnostic) : Prop where
  diagnostics : ds = reports.map (·.error.diagnostic)
  isIn : ∀ r ∈ reports, r.IsIn items

/-- **A broken item changes nothing else.** Its report, of `e`, comes among those that
    are there without it, and these are the same messages for the same items. What is
    reported of disturbed items is left out here; in the second run they have a single
    report, of being out of place. -/
structure Isolates (i : Nat) (e : SyntaxError) (disturbed : Nat → Bool)
    (reports reports' : List Report) : Prop where
  others : ∃ earlier later,
    (reports.filter (!disturbed ·.index)).map Report.label = earlier ++ later ∧
      (reports'.filter (!disturbed ·.index)).map Report.label =
        earlier ++ (i, e.message) :: later
  disturbed : ∀ j, disturbed j = true →
    (reports'.filter (·.index = j)).map Report.label =
      [(j, SyntaxCause.portOutsidePortModule.message)]

end Item

/-! ## Sources -/

namespace Module

/-- **The item with the number `i` is broken** in the second one of two sources, which
    agree but for this item: there it cannot be read, because of `e`, while in the
    first source no diagnostic is in it. -/
structure Breaks (source source' : String) (items items' : List Item) (i : Nat)
    (e : SyntaxError) : Prop where
  cut : ∃ tokens, Token.ofSource source = .ok tokens ∧ itemsOf tokens = items
  cut' : ∃ tokens, Token.ofSource source' = .ok tokens ∧ itemsOf tokens = items'
  agree : Item.AgreeBut i items items'
  clean : ∀ item ∈ items[i]?, ∀ d ∈ (Outcome.ofSource source).diagnostics,
    ¬ d.span.IsOf item.tokens
  fails : (items'[i]?).bind (Item.fault? (Item.kindOf items')) = some e

variable {source source' : String} {items items' : List Item} {i : Nat} {e : SyntaxError}

theorem kindOf_alike (h : List.Forall₂ Item.SameLayout items items') :
    Item.kindOf items = Item.kindOf items' :=
  (ModuleHeader.mk.inj (takeHeader_alike (skipMisplaced_alike h).1).1).1

theorem map_label_filter (keep : Nat → Bool) (reports : List Report) :
    (reports.filter (keep ·.index)).map Report.label =
      (reports.map Report.label).filter (keep ·.1) := by
  rw [List.filter_map]
  rfl

/-- **Broken items are isolated.** Take two sources that agree but for one item, which
    is broken in the second one. The diagnostics of the second source are those of the
    first one, the same messages in the same items, and one more, in the broken item
    and of what is wrong with it. Only if the item is the header of a port module, then
    every port declaration has a single diagnostic in the second source, which says
    that it is out of place, whatever it has in the first one. -/
theorem broken_item_isolated (h : Breaks source source' items items' i e)
    (hplaced : Item.startsPlaced? items = Item.startsPlaced? items') :
    ∃ reports reports',
      Item.Explains items reports (Outcome.ofSource source).diagnostics ∧
        Item.Explains items' reports' (Outcome.ofSource source').diagnostics ∧
        Item.Isolates i e (Item.isDisturbed items i) reports reports' := by
  obtain ⟨tokens, hlexed, hitems⟩ := h.cut
  obtain ⟨tokens', hlexed', hitems'⟩ := h.cut'
  have htail : ∀ a ∈ items.tail, a.first.inFirstColumn = true := by
    rw [← hitems]
    exact (Item.cut_columns _).1
  have htail' : ∀ a ∈ items'.tail, a.first.inFirstColumn = true := by
    rw [← hitems']
    exact (Item.cut_columns _).1
  obtain ⟨before, item, after, before', item', after', hbroken, hbroken', rfl, hbefore, hafter,
    hbegin, hcolumn⟩ := h.agree.cases htail htail' hplaced
  have hat : items[before.length]? = some item := by
    rw [hbroken]
    simp
  have hat' : items'[before.length]? = some item' := by
    rw [hbroken', hbefore.length_eq]
    simp
  -- No report of the first run is of the item, since each one points into its own.
  have hexplains := Item.isIn_reportsOf items
  have hdiagnostics := diagnostics_ofSource hlexed
  rw [hitems] at hdiagnostics
  have hclean : ∀ r ∈ Item.reportsOf items, r.index ≠ before.length := by
    intro r hr hindex
    obtain ⟨blamed, hblamed, hspan⟩ := hexplains r hr
    rw [hindex] at hblamed
    apply h.clean blamed hblamed r.error.diagnostic _ hspan
    rw [hdiagnostics]
    exact List.mem_map_of_mem hr
  -- The second source is read like the first one with the broken item put in.
  have hitem : item'.SameLayout item' := ⟨rfl, rfl⟩
  have hlike : List.Forall₂ Item.SameLayout (before ++ item' :: after) items' := by
    rw [hbroken']
    exact List.rel_append hbefore (.cons hitem hafter)
  have hfails : item'.fault? (Item.kindOf (before ++ item' :: after)) = some e := by
    have hbind := h.fails
    rw [hat'] at hbind
    rw [kindOf_alike hlike]
    exact hbind
  rw [hbroken] at hclean
  obtain ⟨⟨earlier, later, hrun, hrun'⟩, hports⟩ :=
    Item.reportsOf_isolated hbegin hcolumn hfails hclean
  rw [← hbroken] at hrun hrun' hports
  have hlabels := Item.reportsOf_alike hlike
  refine ⟨Item.reportsOf items, Item.reportsOf items', ⟨hdiagnostics, hexplains⟩,
    ⟨?_, Item.isIn_reportsOf items'⟩, ?_⟩
  · rw [diagnostics_ofSource hlexed', hitems']
  · constructor
    case others =>
      refine ⟨earlier.map Report.label, later.map Report.label, ?_, ?_⟩
      · rw [hrun, List.map_append]
      · rw [map_label_filter (!Item.isDisturbed items before.length ·), ← hlabels,
          ← map_label_filter (!Item.isDisturbed items before.length ·), hrun']
        simp [Report.label]
    case disturbed =>
      intro j hj
      obtain ⟨span, hspan⟩ := hports j hj
      rw [map_label_filter (decide <| · = j), ← hlabels, ← map_label_filter (decide <| · = j),
        hspan]
      rfl

/-- The tokens of a source, if it can be cut into tokens. -/
def tokensOf (source : String) : List Token := ((Token.ofSource source).toOption).getD []

/-- The place of tokens in a row starts where one of them starts. -/
theorem exists_start_of_isOf {s : Span} {tokens : List Token} (h : s.IsOf tokens) :
    ∃ t ∈ tokens, s.start = t.span.start := by
  obtain ⟨part, hne, hrow, rfl⟩ := h
  cases part with
  | nil => exact absurd rfl hne
  | cons first rest =>
    have hfirst : first ∈ tokens := hrow.subset List.mem_cons_self
    cases hlast : rest.getLast? with
    | none =>
      obtain rfl := List.getLast?_eq_none_iff.1 hlast
      exact ⟨first, hfirst, by rw [Reader.spanOf_singleton]⟩
    | some last =>
      have hmem : last ∈ tokens :=
        hrow.subset (List.mem_cons_of_mem _ (List.mem_of_getLast? hlast))
      have hspan : Reader.spanOf (first :: rest) = first.span.combine last.span := by
        show first.span.combine ((rest.getLast?.map (·.span)).getD first.span) = _
        rw [hlast]
        rfl
      -- The row starts where the earlier one of its ends does.
      have hmin : min first.span.start last.span.start =
          if first.span.start ≤ last.span.start then first.span.start else last.span.start := rfl
      rw [hspan]
      unfold Span.combine
      dsimp only
      rw [hmin]
      split
      · exact ⟨first, hfirst, rfl⟩
      · exact ⟨last, hmem, rfl⟩

/-- A test for broken items: no diagnostic of the first source starts where a token of
    the item does. -/
def breaks? (source source' : String) (i : Nat) (e : SyntaxError) : Bool :=
  let items := itemsOf (tokensOf source)
  let items' := itemsOf (tokensOf source')
  Token.ofSource source = .ok (tokensOf source) ∧
    Token.ofSource source' = .ok (tokensOf source') ∧
    Item.AgreeBut i items items' ∧
    (∀ item ∈ items[i]?, ∀ d ∈ (Outcome.ofSource source).diagnostics, ∀ t ∈ item.tokens,
      d.span.start ≠ t.span.start) ∧
    (items'[i]?).bind (Item.fault? (Item.kindOf items')) = some e

theorem breaks_of_breaks? (h : breaks? source source' i e = true) :
    Breaks source source' (itemsOf (tokensOf source)) (itemsOf (tokensOf source')) i e := by
  obtain ⟨hlexed, hlexed', hagree, hstarts, hfails⟩ := of_decide_eq_true h
  refine ⟨⟨_, hlexed, rfl⟩, ⟨_, hlexed', rfl⟩, hagree, ?_, hfails⟩
  intro item hitem d hd hspan
  obtain ⟨t, ht, hstart⟩ := exists_start_of_isOf hspan
  exact hstarts item hitem d hd t ht hstart

/-- A definition behind its signature, and another one without a body. -/
def typed : String := "module A exposing (..)\n\nx : Int\nx = 1\n\ny =\n"

/-- The same with nothing left of the signature but the name and the colon. -/
def untyped : String := "module A exposing (..)\n\nx :\nx = 1\n\ny =\n"

theorem broken_item_isolated_untyped :
    ∃ items items' e, Breaks typed untyped items items' 1 e ∧
      Item.startsPlaced? items = Item.startsPlaced? items' ∧
      e.cause = .expected (.typeOf "x") ∧
      ∃ reports reports',
        Item.Explains items reports (Outcome.ofSource typed).diagnostics ∧
          Item.Explains items' reports' (Outcome.ofSource untyped).diagnostics ∧
          Item.Isolates 1 e (Item.isDisturbed items 1) reports reports' := by
  have hbreaks : Breaks typed untyped (itemsOf (tokensOf typed)) (itemsOf (tokensOf untyped)) 1
      ⟨.expected (.typeOf "x"), ⟨26, 27, 3, 3⟩⟩ := breaks_of_breaks? (by decide +kernel)
  have hplaced : Item.startsPlaced? (itemsOf (tokensOf typed)) =
      Item.startsPlaced? (itemsOf (tokensOf untyped)) := by decide +kernel
  exact ⟨_, _, _, hbreaks, hplaced, rfl, broken_item_isolated hbreaks hplaced⟩

/-- Where no item is disturbed there is exactly one diagnostic more, so a broken item
    with another number of diagnostics is not isolated. -/
theorem not_isolates_of_length
    (h : (Outcome.ofSource source').diagnostics.length ≠
      (Outcome.ofSource source).diagnostics.length + 1) :
    ¬ ∃ reports reports',
      Item.Explains items reports (Outcome.ofSource source).diagnostics ∧
        Item.Explains items' reports' (Outcome.ofSource source').diagnostics ∧
        Item.Isolates i e (fun _ => false) reports reports' := by
  rintro ⟨reports, reports', hexplains, hexplains', hisolates⟩
  obtain ⟨earlier, later, hlabels, hlabels'⟩ := hisolates.others
  have hlength := congrArg List.length hlabels
  have hlength' := congrArg List.length hlabels'
  apply h
  rw [hexplains.diagnostics, hexplains'.diagnostics]
  simp only [Bool.not_false, List.filter_true, List.length_map, List.length_append,
    List.length_cons] at hlength hlength' ⊢
  omega

/-- A port module with a port. -/
def portModule : String := "port module A exposing (..)\n\nport send : String -> Cmd msg\n"

/-- The same with a header that exposes nothing, which is an error. -/
def mutePortModule : String := "port module A exposing ()\n\nport send : String -> Cmd msg\n"

/-- Two definitions. -/
def aligned : String := "x = 1\n\ny = 2\n"

/-- The same with the first one indented and the second one without a body. -/
def indented : String := " x = 1\n\ny =\n"

/-- Not every broken item adds a single diagnostic: a broken header of a port module
    puts its ports out of place. Nor are sources alike where what comes first starts in
    the first column in one of them only. -/
theorem broken_item_adds_more :
    (∃ items items' e, Breaks portModule mutePortModule items items' 0 e ∧
      Item.startsPlaced? items = Item.startsPlaced? items' ∧
      ¬ ∃ reports reports',
        Item.Explains items reports (Outcome.ofSource portModule).diagnostics ∧
          Item.Explains items' reports' (Outcome.ofSource mutePortModule).diagnostics ∧
          Item.Isolates 0 e (fun _ => false) reports reports') ∧
    ∃ items items' e, Breaks aligned indented items items' 1 e ∧
      ¬ ∃ reports reports',
        Item.Explains items reports (Outcome.ofSource aligned).diagnostics ∧
          Item.Explains items' reports' (Outcome.ofSource indented).diagnostics ∧
          Item.Isolates 1 e (fun _ => false) reports reports' := by
  have hports : Breaks portModule mutePortModule (itemsOf (tokensOf portModule))
      (itemsOf (tokensOf mutePortModule)) 0 ⟨.emptyExposing, ⟨24, 25, 1, 25⟩⟩ :=
    breaks_of_breaks? (by decide +kernel)
  have hindented : Breaks aligned indented (itemsOf (tokensOf aligned))
      (itemsOf (tokensOf indented)) 1 ⟨.noBody "y", ⟨10, 11, 3, 3⟩⟩ :=
    breaks_of_breaks? (by decide +kernel)
  -- In both cases there are two diagnostics, where there have been none.
  constructor
  · refine ⟨_, _, _, hports, by decide +kernel, not_isolates_of_length ?_⟩
    decide +kernel
  · refine ⟨_, _, _, hindented, not_isolates_of_length ?_⟩
    decide +kernel

end Module

end ElmIntake
