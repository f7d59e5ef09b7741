import ElmIntake.Proofs.Syntax.OutlineItems
import ElmIntake.Proofs.Syntax.Layout

/-! # Printed modules are read back

    An outline is printed as its items, one after the other, each one beginning in
    the first column and with nothing else there. Such a source is a module, and the
    module is the tree of the outline.

    The tokens of the source are those of the parts, so they are cut into the items
    that were printed; and what one item does to a draft is known from the readers, so
    that the draft holds, item by item, what the outline says. -/

namespace ElmIntake

/-! ## Layout -/

/-- Which tokens of an item stand in the first column: the first one. -/
def startsOf : List TokenKind → List Bool
  | [] => []
  | _ :: ks => true :: ks.map fun _ => false

namespace Item

/-- Does an item start in the first column, and no other token of it stand there? -/
structure IsLaidOut (item : Item) : Prop where
  first : item.first.inFirstColumn = true
  rest : ∀ t ∈ item.rest, t.inFirstColumn = false

variable {items : List Item} {tokens more : List Token} {kss : List (List TokenKind)}

/-- Tokens outside the first column join the one before them. -/
theorem cut_cons {t : Token} (hrest : ∀ t ∈ tokens, t.inFirstColumn = false)
    (hmore : cut more = items) (hitems : ∀ item ∈ items.head?, item.first.inFirstColumn = true) :
    cut (t :: (tokens ++ more)) = ⟨t, tokens⟩ :: items := by
  induction tokens generalizing t with
  | nil =>
    rw [List.nil_append, cut, hmore]
    cases items with
    | nil => rfl
    | cons item items => exact if_pos (hitems item rfl)
  | cons next tokens ih =>
    obtain ⟨hnext, hrest⟩ := List.forall_mem_cons.1 hrest
    rw [cut, List.cons_append, ih hrest]
    exact if_neg (by simp [hnext])

/-- Items that are laid out are cut apart again. -/
theorem cut_allTokens (h : ∀ item ∈ items, item.IsLaidOut) : cut (allTokens items) = items := by
  induction items with
  | nil => rfl
  | cons item items ih =>
    obtain ⟨hitem, hitems⟩ := List.forall_mem_cons.1 h
    refine cut_cons hitem.rest (ih hitems) fun next hnext => ?_
    exact (hitems next (List.mem_of_mem_head? hnext)).first

/-- Tokens of known kinds, the first one alone in the first column, are those of an
    item. -/
theorem exists_isLaidOut {ks : List TokenKind} (hne : ks ≠ []) (hkinds : kinds tokens = ks)
    (hcolumns : tokens.map Token.inFirstColumn = startsOf ks) :
    ∃ item : Item, item.tokens = tokens ∧ item.IsLaidOut := by
  cases tokens with
  | nil => exact absurd hkinds.symm hne
  | cons t rest =>
    rw [← hkinds] at hcolumns
    obtain ⟨hfirst, hothers⟩ := List.cons.inj hcolumns
    refine ⟨⟨t, rest⟩, rfl, hfirst, fun other hother => ?_⟩
    have hcolumn : other.inFirstColumn ∈ rest.map Token.inFirstColumn := List.mem_map_of_mem hother
    rw [hothers] at hcolumn
    obtain ⟨-, -, hfalse⟩ := List.mem_map.1 hcolumn
    exact hfalse.symm

/-- Tokens of known kinds in known columns are those of items. -/
theorem exists_items (hne : ∀ ks ∈ kss, ks ≠ []) (hkinds : kinds tokens = kss.flatten)
    (hcolumns : tokens.map Token.inFirstColumn = kss.flatMap startsOf) :
    ∃ items, allTokens items = tokens ∧ items.map (kinds ·.tokens) = kss ∧
      ∀ item ∈ items, item.IsLaidOut := by
  induction kss generalizing tokens with
  | nil =>
    obtain rfl := List.map_eq_nil_iff.1 hkinds
    exact ⟨[], rfl, rfl, nofun⟩
  | cons ks kss ih =>
    obtain ⟨hks, hne⟩ := List.forall_mem_cons.1 hne
    obtain ⟨front, back, rfl, hfront, hback⟩ := List.map_eq_append_iff.1 hkinds
    -- The kinds tell how many tokens the first item has, and so which columns are theirs.
    have hlength : (front.map Token.inFirstColumn).length = (startsOf ks).length := by
      rw [← hfront, List.length_map]
      cases front with
      | nil => rfl
      | cons t front => simp [startsOf]
    rw [List.map_append, List.flatMap_cons] at hcolumns
    obtain ⟨hstart, hrest⟩ := List.append_inj hcolumns hlength
    obtain ⟨item, htokens, hitem⟩ := exists_isLaidOut hks hfront hstart
    obtain ⟨items, hall, hitems, hlaid⟩ := ih hne hback hrest
    refine ⟨item :: items, ?_, ?_, List.forall_mem_cons.2 ⟨hitem, hlaid⟩⟩
    · show item.tokens ++ allTokens items = _
      rw [htokens, hall]
    · rw [List.map_cons, htokens, hitems]
      exact congrArg (· :: kss) hfront

end Item

/-! ## Drafts -/

open Outline Printable

/-- Does a draft hold these imports and declarations, but for places, and wait with this
    signature, without any report? -/
structure Draft.Holds (d : Draft) (imports : List ElmIntake.Import)
    (declarations : List ElmIntake.Declaration) (signature : Option Signature) : Prop where
  imports : d.imports.toList.map Import.unplaced = imports
  declarations : d.declarations.toList.map Declaration.unplaced = declarations
  pendingDoc : d.pendingDoc = none
  pendingSignature : d.pendingSignature.map Signature.unplaced = signature
  errors : d.errors = #[]

section

variable {kind : ModuleKind} {d : Draft} {item : Item} {items : List Item}
  {is : List ElmIntake.Import} {ds : List ElmIntake.Declaration}

theorem Item.kinds_cons {first : TokenKind} {ks : List TokenKind}
    (h : kinds item.tokens = first :: ks) : item.first.kind = first ∧ item.second? = ks.head? := by
  obtain ⟨hfirst, hrest⟩ := List.cons.inj h
  refine ⟨hfirst, ?_⟩
  unfold Item.second?
  rw [← hrest, List.head?_map]

/-! ### Trees of outlines have no places -/

@[simp] theorem Located.unplaced_nowhere {α : Type} (node : α) :
    (Located.nowhere node).unplaced = .nowhere node := rfl

@[simp] theorem Outline.Exposed.unplaced_tree (exposed : Exposed) :
    exposed.tree.unplaced = exposed.tree := by
  cases exposed with
  | all => rfl
  | listed first others => simp [Exposed.tree, Exposing.unplaced, Function.comp_def]

theorem Outline.unplaced_headerTree (o : Outline) : o.headerTree.unplaced = o.headerTree := by
  simp [headerTree, ModuleHeader.unplaced]

theorem Outline.Import.unplaced_tree (i : Outline.Import) : i.tree.unplaced = i.tree := by
  simp [tree, Import.unplaced, Function.comp_def]

theorem Outline.Declaration.unplaced_signature? (d : Outline.Declaration) :
    d.signature?.map Signature.unplaced = d.signature? := by
  cases d with
  | value typing name arguments body => cases typing <;> rfl
  | _ => rfl

theorem Outline.Declaration.unplaced_tree (d : Outline.Declaration) : d.tree.unplaced = d.tree := by
  cases d with
  | value typing name arguments body =>
    have hsignature := (value typing name arguments body).unplaced_signature?
    unfold signature? at hsignature
    simp [tree, Declaration.unplaced, ValueDeclaration.unplaced, Function.comp_def, hsignature]
  | synonym name parameters typing =>
    simp [tree, Declaration.unplaced, AliasDeclaration.unplaced, Function.comp_def]
  | type name parameters first others =>
    simp [tree, Declaration.unplaced, TypeDeclaration.unplaced, Function.comp_def,
      Outline.Constructor.tree, Constructor.unplaced]
  | operator associativity precedence symbols function => rfl
  | port name typing => rfl

/-! ### Steps -/

theorem Draft.Holds.settleSignature (h : d.Holds is ds none) (first : TokenKind) :
    d.settleSignature first = d := by
  have hnone : d.pendingSignature = none := Option.map_eq_none_iff.1 h.pendingSignature
  unfold Draft.settleSignature
  rw [hnone]

theorem Draft.Holds.addImport (h : d.Holds is ds none) (hearly : d.pastImports = false)
    (i : Outline.Import) (hitem : kinds item.tokens = allKinds i.parts) :
    (d.add kind item).Holds (is ++ [i.tree]) ds none ∧ (d.add kind item).pastImports = false := by
  obtain ⟨hfirst, -⟩ := Item.kinds_cons hitem
  obtain ⟨read, hread, hview⟩ := (Reader.import_yields i).onTokens Reader.import_alike hitem
  have hadd : d.add kind item = { d with imports := d.imports.push read, pendingDoc := none } := by
    unfold Draft.add
    rw [h.settleSignature, hfirst]
    show d.addImport item = _
    unfold Draft.addImport
    rw [hearly, hread]
    rfl
  rw [hadd]
  refine ⟨{ h with imports := ?_, pendingDoc := rfl }, hearly⟩
  rw [Array.toList_push, List.map_append, h.imports, List.map_singleton, hview, i.unplaced_tree]

theorem Draft.Holds.addSignature (h : d.Holds is ds none) (name : LowerWord)
    (typing : Fragment isType)
    (hitem : kinds item.tokens = allKinds (Outline.Declaration.signatureParts name typing)) :
    (d.add kind item).Holds is ds (some (Outline.Declaration.signatureTree name typing)) := by
  obtain ⟨hfirst, hsecond⟩ := Item.kinds_cons hitem
  obtain ⟨read, hread, hview⟩ :=
    (Reader.signature_yields name typing).onTokens Reader.signature_alike hitem
  have hadd : d.add kind item =
      { d with pastImports := true, pendingSignature := some read } := by
    unfold Draft.add
    rw [h.settleSignature, hfirst, hsecond]
    show d.addSignature item = _
    unfold Draft.addSignature
    rw [hread]
  rw [hadd]
  exact { h with pendingSignature := congrArg some hview }

/-- A signature that waits for a definition of its name is kept. -/
theorem Draft.Holds.settleSignature_value {typing : Option (Fragment isType)}
    {name : LowerWord}
    (h : d.Holds is ds (typing.map (Outline.Declaration.signatureTree name))) :
    d.settleSignature (.lowerName name.1) = d := by
  have hpending := h.pendingSignature
  unfold Draft.settleSignature
  cases hwaits : d.pendingSignature with
  | none => rfl
  | some s =>
    rw [hwaits] at hpending
    cases typing with
    | none => cases hpending
    | some typing =>
      have hname : s.name.node = name.1 :=
        congrArg (·.name.node) (Option.some.inj hpending)
      dsimp only
      rw [hname, if_pos rfl]

/-- Behind the name of a definition stands no colon. -/
theorem head?_arguments (arguments : List (Fragment isArgument)) (ks : List TokenKind) :
    (allKinds (arguments.map (·.toPrintable)) ++ .equals :: ks).head? ≠ some .colon := by
  cases arguments with
  | nil => simp
  | cons argument arguments =>
    have hgood := argument.isGood
    unfold isArgument at hgood
    show (argument.kinds ++ allKinds (arguments.map (·.toPrintable)) ++ _).head? ≠ _
    split at hgood
    · next hkinds => simp [hkinds]
    · next hkinds => simp [hkinds]
    · next hkinds => simp [hkinds]
    · obtain ⟨bracket, inner, hkinds, -⟩ := exists_of_isGroup hgood
      simp [hkinds]

/-- A declaration is read as one, and a signature that waits is that of its name. -/
theorem Draft.Holds.add_eq (d' : Outline.Declaration) (h : d.Holds is ds d'.signature?)
    (hitem : kinds item.tokens = allKinds d'.parts) :
    d.add kind item = d.addDeclaration kind item := by
  unfold Draft.add
  cases d' with
  | value typing name arguments body =>
    have hkinds : allKinds (Outline.Declaration.value typing name arguments body).parts =
        .lowerName name.1 ::
          (allKinds (arguments.map (·.toPrintable)) ++ .equals :: body.kinds) := by
      simp [Outline.Declaration.parts, allKinds]
    obtain ⟨hfirst, hsecond⟩ := Item.kinds_cons (hitem.trans hkinds)
    have hcolon := head?_arguments arguments body.kinds
    rw [← hsecond] at hcolon
    rw [hfirst, h.settleSignature_value]
    dsimp only
    split
    all_goals first | rfl | contradiction
  | synonym name parameters typing =>
    obtain ⟨hfirst, hsecond⟩ := Item.kinds_cons hitem
    rw [h.settleSignature, hfirst, hsecond]
  | type name parameters first others =>
    obtain ⟨hfirst, hsecond⟩ := Item.kinds_cons hitem
    rw [h.settleSignature, hfirst, hsecond]
  | operator associativity precedence symbols function =>
    obtain ⟨hfirst, hsecond⟩ := Item.kinds_cons hitem
    rw [h.settleSignature, hfirst, hsecond]
  | port name typing =>
    obtain ⟨hfirst, hsecond⟩ := Item.kinds_cons hitem
    rw [h.settleSignature, hfirst, hsecond]
    rfl

theorem Draft.Holds.addDeclaration (d' : Outline.Declaration)
    (h : d.Holds is ds d'.signature?) (hport : d'.isPort = true → kind = .port)
    (hitem : kinds item.tokens = allKinds d'.parts) :
    (d.add kind item).Holds is (ds ++ [d'.tree]) none := by
  have halike := Reader.declaration_alike kind (congrArg (Option.map Located.unplaced) h.pendingDoc)
    (h.pendingSignature.trans d'.unplaced_signature?.symm)
  obtain ⟨read, hread, hview⟩ := (Reader.declaration_yields d' hport).onTokens halike hitem
  rw [h.add_eq d' hitem]
  unfold Draft.addDeclaration
  rw [hread]
  refine { h with declarations := ?_, pendingDoc := rfl, pendingSignature := rfl }
  rw [Array.toList_push, List.map_append, h.declarations, List.map_singleton, hview,
    d'.unplaced_tree]

/-! ### Runs -/

theorem Draft.Holds.addImports {imports : List Outline.Import} (h : d.Holds is ds none)
    (hearly : d.pastImports = false)
    (hitems : items.map (kinds ·.tokens) = imports.map (allKinds ·.parts)) :
    (items.foldl (Draft.add kind) d).Holds (is ++ imports.map Outline.Import.tree) ds none := by
  induction imports generalizing items d is with
  | nil =>
    obtain rfl := List.map_eq_nil_iff.1 hitems
    rw [List.map_nil, List.append_nil]
    exact h
  | cons i imports ih =>
    cases items with
    | nil => cases hitems
    | cons item items =>
      obtain ⟨hitem, hitems⟩ := List.cons.inj hitems
      have hstep : (d.add kind item).Holds (is ++ [i.tree]) ds none ∧
          (d.add kind item).pastImports = false := h.addImport hearly i hitem
      have hall := ih hstep.1 hstep.2 hitems
      rw [List.append_assoc, List.singleton_append, ← List.map_cons] at hall
      exact hall

/-- The items of one declaration: the signature, if there is one, and the declaration. -/
theorem Draft.Holds.addItems (d' : Outline.Declaration) (h : d.Holds is ds none)
    (hport : d'.isPort = true → kind = .port)
    (hitems : items.map (kinds ·.tokens) = d'.items.map allKinds) :
    (items.foldl (Draft.add kind) d).Holds is (ds ++ [d'.tree]) none := by
  -- Only a definition with a signature has two items.
  have halone : ∀ d' : Outline.Declaration, (d'.isPort = true → kind = .port) →
      d'.signature? = none → items.map (kinds ·.tokens) = [allKinds d'.parts] →
      (items.foldl (Draft.add kind) d).Holds is (ds ++ [d'.tree]) none := by
    intro d' hport hnone hitems
    obtain ⟨item, rfl, hitem⟩ := List.map_eq_singleton_iff.1 hitems
    rw [← hnone] at h
    exact h.addDeclaration d' hport hitem
  cases d' with
  | value typing name arguments body =>
    cases typing with
    | none => exact halone _ hport rfl hitems
    | some typing =>
      cases items with
      | nil => cases hitems
      | cons item items =>
        obtain ⟨hsignature, hitems⟩ := List.cons.inj hitems
        obtain ⟨definition, rfl, hdefinition⟩ := List.map_eq_singleton_iff.1 hitems
        have hwaits : (d.add kind item).Holds is ds
            (some (Outline.Declaration.signatureTree name typing)) :=
          h.addSignature name typing hsignature
        exact hwaits.addDeclaration (.value (some typing) name arguments body) hport hdefinition
  | synonym name parameters typing => exact halone _ hport rfl hitems
  | type name parameters first others => exact halone _ hport rfl hitems
  | operator associativity precedence symbols function => exact halone _ hport rfl hitems
  | port name typing => exact halone _ hport rfl hitems

theorem Draft.Holds.addDeclarations {declarations : List Outline.Declaration}
    (h : d.Holds is ds none) (hports : ∀ d' ∈ declarations, d'.isPort = true → kind = .port)
    (hitems : items.map (kinds ·.tokens) =
      declarations.flatMap fun d' => d'.items.map allKinds) :
    (items.foldl (Draft.add kind) d).Holds is
      (ds ++ declarations.map Outline.Declaration.tree) none := by
  induction declarations generalizing items d ds with
  | nil =>
    obtain rfl := List.map_eq_nil_iff.1 hitems
    rw [List.map_nil, List.append_nil]
    exact h
  | cons d' declarations ih =>
    obtain ⟨hport, hports⟩ := List.forall_mem_cons.1 hports
    rw [List.flatMap_cons] at hitems
    obtain ⟨front, back, rfl, hfront, hback⟩ := List.map_eq_append_iff.1 hitems
    have hall := ih (h.addItems d' hport hfront) hports hback
    rw [List.append_assoc, List.singleton_append, ← List.map_cons] at hall
    rw [List.foldl_append]
    exact hall

end

/-! ## Modules -/

namespace Outline

/-- Do the tokens of a source, up to its end, stand where those of the items may: the
    first one of each item in the first column, and every other one outside it? -/
def IsLaidOut (o : Outline) (tokens : List Token) : Prop :=
  (tokens.takeWhile (·.kind != .eof)).map Token.inFirstColumn = o.itemKinds.flatMap startsOf

instance (o : Outline) (tokens : List Token) : Decidable (o.IsLaidOut tokens) :=
  inferInstanceAs (Decidable (_ = _))

/-- The kinds of the items behind the header. -/
def laterKinds (o : Outline) : List (List TokenKind) :=
  o.imports.map (allKinds ·.parts) ++ o.declarations.flatMap fun d => d.items.map allKinds

theorem itemKinds_eq (o : Outline) : o.itemKinds = allKinds o.headerParts :: o.laterKinds := by
  unfold itemKinds items laterKinds
  rw [List.map_cons, List.map_append, List.map_map, List.map_flatMap]
  rfl

/-- No item behind the header is a documentation comment, or nothing. -/
theorem exists_of_mem_laterKinds (o : Outline) {ks : List TokenKind} (h : ks ∈ o.laterKinds) :
    ∃ first rest, ks = first :: rest ∧ ∀ text, first ≠ .doc text := by
  rcases List.mem_append.1 h with himport | hdeclaration
  · obtain ⟨i, -, rfl⟩ := List.mem_map.1 himport
    exact ⟨_, _, rfl, nofun⟩
  · obtain ⟨d, -, hitem⟩ := List.mem_flatMap.1 hdeclaration
    obtain ⟨parts, hparts, rfl⟩ := List.mem_map.1 hitem
    rcases d with ⟨_ | typing, name, arguments, body⟩ | _ | _ | _ | _
    all_goals
      simp only [Declaration.items, List.mem_cons, List.not_mem_nil, or_false] at hparts
    · rw [hparts]
      exact ⟨_, _, rfl, nofun⟩
    · rcases hparts with rfl | rfl
      all_goals exact ⟨_, _, rfl, nofun⟩
    all_goals
      rw [hparts]
      exact ⟨_, _, rfl, nofun⟩

theorem itemKinds_ne_nil (o : Outline) : ∀ ks ∈ o.itemKinds, ks ≠ [] := by
  rw [itemKinds_eq]
  refine List.forall_mem_cons.2 ⟨?_, fun ks hks => ?_⟩
  · unfold headerParts
    cases o.isPort <;> nofun
  · obtain ⟨first, rest, rfl, -⟩ := o.exists_of_mem_laterKinds hks
    exact List.cons_ne_nil _ _

variable {item : Item} {items : List Item}

theorem takeHeader_eq (o : Outline) (items : List Item)
    (hitem : kinds item.tokens = allKinds o.headerParts) :
    ∃ header,
      takeHeader (item :: items) = (header, items, []) ∧ header.unplaced = o.headerTree := by
  have hstarts : startsWithHeader (item :: items) = true := by
    have hkinds : (Item.allTokens (item :: items)).map (·.kind) =
        allKinds o.headerParts ++ kinds (Item.allTokens items) := by
      rw [← hitem]
      exact List.map_append
    unfold startsWithHeader
    rw [hkinds]
    unfold headerParts
    cases o.isPort <;> rfl
  obtain ⟨header, hread, hview⟩ :=
    (Reader.header_yields o).onTokens Reader.header_alike hitem
  refine ⟨header, ?_, hview.trans o.unplaced_headerTree⟩
  unfold takeHeader
  rw [hstarts]
  dsimp only
  rw [hread]

theorem takeDoc_eq (o : Outline) (hitems : items.map (kinds ·.tokens) = o.laterKinds) :
    takeDoc items = (none, items, []) := by
  cases items with
  | nil => rfl
  | cons item items =>
    have hmem : kinds item.tokens ∈ o.laterKinds := by
      rw [← hitems]
      exact List.mem_cons_self
    obtain ⟨first, rest, hkinds, hdoc⟩ := o.exists_of_mem_laterKinds hmem
    have hfirst := (Item.kinds_cons hkinds).1
    unfold takeDoc
    dsimp only
    split
    · next text heq => exact absurd (hfirst.symm.trans heq) (hdoc text)
    · rfl

/-- What the items behind the header make of a draft. -/
theorem holds_foldl (o : Outline) (hitems : items.map (kinds ·.tokens) = o.laterKinds) :
    (items.foldl (Draft.add o.moduleKind) (.start [])).Holds (o.imports.map Import.tree)
      (o.declarations.map Declaration.tree) none := by
  obtain ⟨front, back, rfl, hfront, hback⟩ := List.map_eq_append_iff.1 hitems
  have hstart : (Draft.start []).Holds [] [] none := ⟨rfl, rfl, rfl, rfl, rfl⟩
  have hports : ∀ d ∈ o.declarations, d.isPort = true → o.moduleKind = .port := by
    intro d hd hport
    unfold moduleKind
    rw [o.ports (List.any_eq_true.2 ⟨d, hd, hport⟩), if_pos rfl]
  have himports : (front.foldl (Draft.add o.moduleKind) (.start [])).Holds
      ([] ++ o.imports.map Import.tree) [] none := hstart.addImports rfl hfront
  have hall := himports.addDeclarations hports hback
  rw [List.nil_append, List.nil_append] at hall
  rw [List.foldl_append]
  exact hall

/-- **Items that are laid out are read back.** -/
theorem exists_ofTokens (o : Outline) {last : Token} (hlast : last.kind = .eof)
    (hend : ∀ t ∈ Item.allTokens items, t.kind ≠ .eof)
    (hitems : items.map (kinds ·.tokens) = o.itemKinds) (hlaid : ∀ item ∈ items, item.IsLaidOut) :
    ∃ m, Module.ofTokens (Item.allTokens items ++ [last]) = .ok m ∧ m.unplaced = o.tree := by
  -- Items that are laid out are cut where they end.
  have hcut : itemsOf (Item.allTokens items ++ [last]) = items := by
    have hall : ∀ t ∈ Item.allTokens items, (t.kind != .eof) = true := fun t ht => by
      simpa using hend t ht
    unfold itemsOf
    rw [List.takeWhile_append_of_pos hall, List.takeWhile_cons_of_neg (by simp [hlast]),
      List.append_nil, Item.cut_allTokens hlaid]
  rw [itemKinds_eq] at hitems
  cases items with
  | nil => cases hitems
  | cons item items =>
    obtain ⟨hheader, hlater⟩ := List.cons.inj hitems
    have hplaced : skipMisplaced (item :: items) = (item :: items, []) :=
      if_pos (hlaid item List.mem_cons_self).first
    obtain ⟨header, htake, hview⟩ := o.takeHeader_eq items hheader
    have hkind : header.kind = o.moduleKind := congrArg ModuleHeader.kind hview
    have hdraft := o.holds_foldl hlater
    have hfinish : (items.foldl (Draft.add o.moduleKind) (.start [])).finish =
        items.foldl (Draft.add o.moduleKind) (.start []) := by
      unfold Draft.finish
      rw [Option.map_eq_none_iff.1 hdraft.pendingSignature]
    -- The first item is the header, there is no comment, and the other items are added in turn.
    have hdraftOf : Module.draftOf (Item.allTokens (item :: items) ++ [last]) =
        (header, none, items.foldl (Draft.add o.moduleKind) (.start [])) := by
      unfold Module.draftOf
      dsimp only
      rw [hcut, hplaced]
      dsimp only
      rw [htake]
      dsimp only
      rw [o.takeDoc_eq hlater, hkind]
      dsimp only
      rw [List.append_nil, List.append_nil, hfinish]
    rw [Module.ofTokens_eq, hdraftOf]
    dsimp only
    rw [hdraft.errors]
    refine ⟨_, rfl, ?_⟩
    simp only [Module.unplaced, hview, hdraft.imports, hdraft.declarations]
    rfl

end Outline

/-! ## Sources -/

/-- **A printed module is read back.** Whatever outline is printed, with blanks between
    its parts, the first token of each item in the first column and every other one
    outside it, the source is a module, and the module is the tree of the outline. -/
theorem Module.ofSource_printed (o : Outline) {source : String}
    (hprints : Prints o.parts source.toList)
    (hlayout : ∀ tokens, Token.ofSource source = .ok tokens → o.IsLaidOut tokens) :
    ∃ m, ofSource source = .ok m ∧ m.unplaced = o.tree := by
  obtain ⟨tokens, htokens, hkinds⟩ := Token.exists_ofSource_of_prints hprints o.lexes_parts
  obtain ⟨stream, last, rfl, hlast, hstream⟩ := Token.exists_stream htokens
  have hall : ∀ t ∈ stream, (t.kind != .eof) = true := fun t ht => by simpa using hstream t ht
  have hstreamKinds : kinds stream = o.itemKinds.flatten := by
    rw [List.map_append, List.map_singleton, hlast] at hkinds
    have hfront := List.append_cancel_right hkinds
    exact hfront.trans o.allKinds_parts
  have hcolumns : stream.map Token.inFirstColumn = o.itemKinds.flatMap startsOf := by
    have hlaid := hlayout _ htokens
    unfold Outline.IsLaidOut at hlaid
    rw [List.takeWhile_append_of_pos hall, List.takeWhile_cons_of_neg (by simp [hlast]),
      List.append_nil] at hlaid
    exact hlaid
  obtain ⟨items, rfl, hitems, hlaid⟩ := Item.exists_items o.itemKinds_ne_nil hstreamKinds hcolumns
  obtain ⟨m, hm, htree⟩ := o.exists_ofTokens hlast hstream hitems hlaid
  refine ⟨m, ?_, htree⟩
  unfold ofSource
  rw [htokens]
  dsimp only
  rw [hm]
  rfl

/-! ### A module with all kinds of items -/

namespace Outline

/-- A port module with an import and a declaration of every kind. -/
def shop : Outline where
  isPort := true
  name := ⟨["A", "B"], by decide +kernel⟩
  exposed := .listed (.type ⟨"T", by decide +kernel⟩ true)
    [.value ⟨"f", by decide +kernel⟩, .operator ⟨"|=", by decide +kernel⟩]
  imports := [⟨⟨["C"], by decide +kernel⟩, some ⟨"D", by decide +kernel⟩, some .all⟩]
  declarations := [
    .synonym ⟨"P", by decide +kernel⟩ []
      ⟨⟨⟨"Int", [.upperName "Int"]⟩, by decide +kernel⟩, by decide +kernel⟩,
    .type ⟨"T", by decide +kernel⟩ [⟨"a", by decide +kernel⟩]
      ⟨⟨"L", by decide +kernel⟩, [⟨⟨⟨"a (T a)", [.lowerName "a", .opening .paren, .upperName "T",
        .lowerName "a", .closing .paren]⟩, by decide +kernel⟩, by decide +kernel⟩]⟩
      [⟨⟨"N", by decide +kernel⟩, []⟩],
    .operator .left 6 ⟨"|=", by decide +kernel⟩ ⟨"f", by decide +kernel⟩,
    .port ⟨"g", by decide +kernel⟩
      ⟨⟨⟨"P -> Cmd a", [.upperName "P", .arrow, .upperName "Cmd", .lowerName "a"]⟩,
        by decide +kernel⟩, by decide +kernel⟩,
    .value (some ⟨⟨⟨"P\n -> P", [.upperName "P", .arrow, .upperName "P"]⟩, by decide +kernel⟩,
        by decide +kernel⟩)
      ⟨"f", by decide +kernel⟩
      [⟨⟨⟨"x", [.lowerName "x"]⟩, by decide +kernel⟩, by decide +kernel⟩,
        ⟨⟨⟨"(_, n)", [.opening .paren, .wildcard, .comma, .lowerName "n", .closing .paren]⟩,
          by decide +kernel⟩, by decide +kernel⟩]
      ⟨⟨⟨"if n then 1\n  else x", [.keyword .ifWord, .lowerName "n", .keyword .thenWord,
        .number "1", .keyword .elseWord, .lowerName "x"]⟩, by decide +kernel⟩, by decide +kernel⟩]
  ports := fun _ => rfl

/-- The module as it may be printed, with blanks where they are wanted. -/
def shopSource : String :=
  "port module A.B exposing (T(..), f, (|=))\nimport C as D exposing (..)\n" ++
    "type alias P = Int\ntype T a\n = L a (T a)\n | N\ninfix left 6 (|=) = f\n" ++
    "port g : P -> Cmd a\nf : P\n -> P\nf x (_, n) =\n  if n then 1\n  else x\n"

end Outline

-- The source is compared with its characters one by one, which takes this depth.
set_option maxRecDepth 4000 in
theorem Module.ofSource_printed_shop :
    Prints Outline.shop.parts Outline.shopSource.toList ∧
      ∃ m, ofSource Outline.shopSource = .ok m ∧ m.unplaced = Outline.shop.tree := by
  have htext : Outline.shopSource.toList = (_ ++ _) ++ _ :=
    String.toList_append.trans (congrArg₂ (· ++ ·)
      (String.toList_append.trans (congrArg₂ (· ++ ·) String.toList_ofList String.toList_ofList))
      String.toList_ofList)
  have hprints : Prints Outline.shop.parts Outline.shopSource.toList := by
    rw [htext]
    exact prints_of_isPrinted (by decide +kernel)
  have hlayout : (match Token.ofSource Outline.shopSource with
      | .ok tokens => decide (Outline.shop.IsLaidOut tokens)
      | .error _ => false) = true := by
    unfold Token.ofSource
    rw [htext]
    decide +kernel
  refine ⟨hprints, ofSource_printed Outline.shop hprints fun tokens htokens => ?_⟩
  rw [htokens] at hlayout
  exact of_decide_eq_true hlayout

end ElmIntake
