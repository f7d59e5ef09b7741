import ElmIntake.Proofs.Syntax.AlikeItems
import ElmIntake.Syntax.Outcome

/-! # Layout does not matter

    All that the reading of a module looks at is the kinds of its tokens and
    which of them stand in the first column. So indentation, blank lines, line
    breaks inside an item and comments change nothing but places.

    This is a property of two runs, which go on side by side: they cut their
    tokens into the same items, and their drafts differ in places only. -/

namespace ElmIntake

/-- Are two tokens of one kind, and both in the first column or both outside it? -/
structure Token.SameLayout (t t' : Token) : Prop where
  kind : t.kind = t'.kind
  column : t.inFirstColumn = t'.inFirstColumn

/-- Do two items have tokens of the same kinds, and start both in the first column
    or both outside it? -/
structure Item.SameLayout (item item' : Item) : Prop where
  kinds : kinds item.tokens = kinds item'.tokens
  column : item.first.inFirstColumn = item'.first.inFirstColumn

instance Token.decidableSameLayout (t t' : Token) : Decidable (t.SameLayout t') :=
  decidable_of_iff (t.kind = t'.kind ∧ t.inFirstColumn = t'.inFirstColumn)
    ⟨fun h => ⟨h.1, h.2⟩, fun h => ⟨h.kind, h.column⟩⟩

/-! ## Items -/

theorem takeWhile_sameLayout (p : TokenKind → Bool) {tokens tokens' : List Token}
    (h : List.Forall₂ Token.SameLayout tokens tokens') :
    List.Forall₂ Token.SameLayout (tokens.takeWhile (p ·.kind)) (tokens'.takeWhile (p ·.kind)) := by
  induction h with
  | nil => exact .nil
  | cons hfirst _ ih =>
    rw [List.takeWhile_cons, List.takeWhile_cons, hfirst.kind]
    split
    · exact .cons hfirst ih
    · exact .nil

namespace Item

variable {item item' : Item} {items items' : List Item}

theorem SameLayout.first (h : SameLayout item item') : item.first.kind = item'.first.kind :=
  (List.cons.inj h.kinds).1

theorem SameLayout.rest (h : SameLayout item item') :
    ElmIntake.kinds item.rest = ElmIntake.kinds item'.rest :=
  (List.cons.inj h.kinds).2

theorem SameLayout.second? (h : SameLayout item item') : item.second? = item'.second? :=
  head?_of_kinds h.rest

theorem cut_sameLayout {tokens tokens' : List Token}
    (h : List.Forall₂ Token.SameLayout tokens tokens') :
    List.Forall₂ SameLayout (cut tokens) (cut tokens') := by
  induction h with
  | nil => exact .nil
  | @cons t t' tokens tokens' hfirst _ ih =>
    unfold cut
    generalize cut tokens = items at ih ⊢
    generalize cut tokens' = items' at ih ⊢
    -- Whether a token starts an item hangs on the column of the token behind it.
    cases ih with
    | nil => exact .cons ⟨congrArg (· :: []) hfirst.kind, hfirst.column⟩ .nil
    | cons hitem hitems =>
      dsimp only
      rw [hitem.column]
      split
      · exact .cons ⟨congrArg (· :: []) hfirst.kind, hfirst.column⟩ (.cons hitem hitems)
      · refine .cons ⟨?_, hfirst.column⟩ hitems
        exact congrArg₂ List.cons hfirst.kind hitem.kinds

theorem allTokens_sameLayout (h : List.Forall₂ SameLayout items items') :
    ElmIntake.kinds (allTokens items) = ElmIntake.kinds (allTokens items') := by
  induction h with
  | nil => rfl
  | cons hfirst _ ih =>
    have hkinds := congrArg₂ (· ++ ·) hfirst.kinds ih
    simpa [allTokens, ElmIntake.kinds] using hkinds

end Item

/-! ## Drafts -/

theorem readDoc_alike {item item' : Item} (h : item.SameLayout item') :
    seen (Option.map Located.unplaced) (readDoc item) =
      seen (Option.map Located.unplaced) (readDoc item') := by
  unfold readDoc
  rw [h.first]
  have hrest := h.rest
  cases hfirst : item.rest with
  | nil =>
    rw [hfirst] at hrest
    rw [eq_nil_of_kinds hrest]
    split <;> rfl
  | cons t rest =>
    rw [hfirst] at hrest
    obtain ⟨t', rest', hsecond, -, -⟩ := exists_of_kinds_cons hrest
    rw [hsecond]
    split <;> first | rfl | contradiction

namespace Draft

/-- Do two drafts differ in places only? -/
structure Alike (d d' : Draft) : Prop where
  imports : d.imports.map Import.unplaced = d'.imports.map Import.unplaced
  declarations : d.declarations.map Declaration.unplaced = d'.declarations.map Declaration.unplaced
  pastImports : d.pastImports = d'.pastImports
  pendingDoc : d.pendingDoc.map Located.unplaced = d'.pendingDoc.map Located.unplaced
  pendingSignature : d.pendingSignature.map Signature.unplaced =
    d'.pendingSignature.map Signature.unplaced
  causes : d.errors.map (·.cause) = d'.errors.map (·.cause)

variable {d d' : Draft} {item item' : Item}

namespace Alike

theorem start {errors errors' : List SyntaxError}
    (h : errors.map (·.cause) = errors'.map (·.cause)) :
    Alike (.start errors) (.start errors') where
  imports := rfl
  declarations := rfl
  pastImports := rfl
  pendingDoc := rfl
  pendingSignature := rfl
  causes := by simpa [Draft.start] using h

theorem passImports (h : Alike d d') :
    Alike { d with pastImports := true } { d' with pastImports := true } :=
  { h with pastImports := rfl }

theorem dropDoc (h : Alike d d') :
    Alike { d with pendingDoc := none } { d' with pendingDoc := none } :=
  { h with pendingDoc := rfl }

theorem dropSignature (h : Alike d d') :
    Alike { d with pendingSignature := none } { d' with pendingSignature := none } :=
  { h with pendingSignature := rfl }

theorem report (h : Alike d d') {e e' : SyntaxError} (he : e.cause = e'.cause) :
    Alike (d.report e) (d'.report e') :=
  { h with causes := by simp only [Draft.report, Array.map_push, h.causes, he] }

theorem reportSignature (h : Alike d d') {s s' : Signature} (hs : s.unplaced = s'.unplaced) :
    Alike (d.reportSignature s) (d'.reportSignature s') := by
  refine h.report ?_
  rw [Located.node_eq_of_unplaced (Signature.mk.inj hs).1]

theorem settleSignature (h : Alike d d') (first : TokenKind) :
    Alike (d.settleSignature first) (d'.settleSignature first) := by
  unfold Draft.settleSignature
  obtain ⟨hnone, hnone'⟩ | ⟨s, s', hs, hs', hsignature⟩ := cases_of_map_eq h.pendingSignature
  · rwa [hnone, hnone']
  · rw [hs, hs']
    dsimp only
    rw [Located.node_eq_of_unplaced (Signature.mk.inj hsignature).1]
    split
    · exact h
    · exact h.dropSignature.reportSignature hsignature

theorem addDoc (h : Alike d d') (hitem : item.SameLayout item') :
    Alike (d.addDoc item) (d'.addDoc item') := by
  unfold Draft.addDoc
  obtain ⟨e, e', he, he', hcause⟩ | ⟨doc, doc', hread, hread', hdoc⟩ :=
    cases_of_seen_eq (readDoc_alike hitem)
  · rw [he, he']
    exact h.dropDoc.report hcause
  · rw [hread, hread']
    exact { h with pendingDoc := hdoc }

theorem addImport (h : Alike d d') (hitem : item.SameLayout item') :
    Alike (d.addImport item) (d'.addImport item') := by
  unfold Draft.addImport
  by_cases hpast : d.pastImports = true
  · rw [if_pos hpast, if_pos (h.pastImports ▸ hpast)]
    exact h.report rfl
  · rw [if_neg hpast, if_neg (h.pastImports ▸ hpast)]
    obtain ⟨e, e', he, he', hcause⟩ | ⟨i, i', hread, hread', hi⟩ :=
      cases_of_seen_eq (Reader.import_alike.onTokens hitem.kinds)
    · rw [he, he']
      exact h.dropDoc.report hcause
    · rw [hread, hread']
      have himports : (d.imports.push i).map Import.unplaced =
          (d'.imports.push i').map Import.unplaced := by
        simp only [Array.map_push, h.imports, hi]
      exact { h.dropDoc with imports := himports }

theorem addSignature (h : Alike d d') (hitem : item.SameLayout item') :
    Alike (d.addSignature item) (d'.addSignature item') := by
  unfold Draft.addSignature
  obtain ⟨e, e', he, he', hcause⟩ | ⟨s, s', hread, hread', hs⟩ :=
    cases_of_seen_eq (Reader.signature_alike.onTokens hitem.kinds)
  · rw [he, he']
    exact h.passImports.report hcause
  · rw [hread, hread']
    exact { h.passImports with pendingSignature := congrArg some hs }

theorem addDeclaration (kind : ModuleKind) (h : Alike d d') (hitem : item.SameLayout item') :
    Alike (d.addDeclaration kind item) (d'.addDeclaration kind item') := by
  have hread := (Reader.declaration_alike kind h.pendingDoc h.pendingSignature).onTokens hitem.kinds
  have hsettled := h.passImports.dropDoc.dropSignature
  unfold Draft.addDeclaration
  obtain ⟨e, e', he, he', hcause⟩ | ⟨declaration, declaration', hfirst, hsecond, hnew⟩ :=
    cases_of_seen_eq hread
  · rw [he, he']
    exact hsettled.report hcause
  · rw [hfirst, hsecond]
    have hdeclarations : (d.declarations.push declaration).map Declaration.unplaced =
        (d'.declarations.push declaration').map Declaration.unplaced := by
      simp only [Array.map_push, h.declarations, hnew]
    exact { hsettled with declarations := hdeclarations }

/-- **The step.** Items of the same layout do the same to a draft. -/
theorem add (kind : ModuleKind) (h : Alike d d') (hitem : item.SameLayout item') :
    Alike (d.add kind item) (d'.add kind item') := by
  have hsettled := h.settleSignature item'.first.kind
  unfold Draft.add
  rw [hitem.first, hitem.second?]
  dsimp only
  split
  · exact hsettled.addDoc hitem
  · exact hsettled.addImport hitem
  · exact hsettled.report rfl
  · exact hsettled.report rfl
  · exact hsettled.report rfl
  · exact hsettled.addSignature hitem
  · exact hsettled.addDeclaration kind hitem

/-- **The run.** The induction is on the items. -/
theorem addAll (kind : ModuleKind) {items items' : List Item} (h : Alike d d')
    (hitems : List.Forall₂ Item.SameLayout items items') :
    Alike (items.foldl (Draft.add kind) d) (items'.foldl (Draft.add kind) d') := by
  induction hitems generalizing d d' with
  | nil => exact h
  | cons hitem _ ih => exact ih (h.add kind hitem)

theorem finish (h : Alike d d') : Alike d.finish d'.finish := by
  unfold Draft.finish
  obtain ⟨hnone, hnone'⟩ | ⟨s, s', hs, hs', hsignature⟩ := cases_of_map_eq h.pendingSignature
  · rwa [hnone, hnone']
  · rw [hs, hs']
    exact h.dropSignature.reportSignature hsignature

end Alike

end Draft

/-! ## The beginning of a source -/

section

variable {items items' : List Item}

theorem skipMisplaced_alike (h : List.Forall₂ Item.SameLayout items items') :
    List.Forall₂ Item.SameLayout (skipMisplaced items).1 (skipMisplaced items').1 ∧
      (skipMisplaced items).2.map (·.cause) = (skipMisplaced items').2.map (·.cause) := by
  cases h with
  | nil => exact ⟨.nil, rfl⟩
  | cons hitem hitems =>
    unfold skipMisplaced
    dsimp only
    rw [hitem.column]
    split
    · exact ⟨.cons hitem hitems, rfl⟩
    · exact ⟨hitems, rfl⟩

theorem takeHeader_alike (h : List.Forall₂ Item.SameLayout items items') :
    (takeHeader items).1.unplaced = (takeHeader items').1.unplaced ∧
      List.Forall₂ Item.SameLayout (takeHeader items).2.1 (takeHeader items').2.1 ∧
      (takeHeader items).2.2.map (·.cause) = (takeHeader items').2.2.map (·.cause) := by
  have hstarts : startsWithHeader items = startsWithHeader items' := by
    unfold startsWithHeader
    have hkinds := Item.allTokens_sameLayout h
    unfold kinds at hkinds
    rw [hkinds]
  unfold takeHeader
  rw [hstarts]
  cases h with
  | nil => cases startsWithHeader [] <;> exact ⟨rfl, .nil, rfl⟩
  | @cons item item' _ _ hitem hitems =>
    cases startsWithHeader (_ :: _) with
    | false => exact ⟨rfl, .cons hitem hitems, rfl⟩
    | true =>
      dsimp only
      obtain ⟨e, e', he, he', hcause⟩ | ⟨header, header', hread, hread', hheader⟩ :=
        cases_of_seen_eq (Reader.header_alike.onTokens hitem.kinds)
      · rw [he, he']
        exact ⟨rfl, hitems, congrArg (· :: []) hcause⟩
      · rw [hread, hread']
        exact ⟨hheader, hitems, rfl⟩

theorem takeDoc_alike (h : List.Forall₂ Item.SameLayout items items') :
    (takeDoc items).1.map Located.unplaced = (takeDoc items').1.map Located.unplaced ∧
      List.Forall₂ Item.SameLayout (takeDoc items).2.1 (takeDoc items').2.1 ∧
      (takeDoc items).2.2.map (·.cause) = (takeDoc items').2.2.map (·.cause) := by
  cases h with
  | nil => exact ⟨rfl, .nil, rfl⟩
  | @cons item item' _ _ hitem hitems =>
    unfold takeDoc
    dsimp only
    rw [hitem.first]
    split
    · obtain ⟨e, e', he, he', hcause⟩ | ⟨doc, doc', hread, hread', hdoc⟩ :=
        cases_of_seen_eq (readDoc_alike hitem)
      · rw [he, he']
        exact ⟨rfl, hitems, congrArg (· :: []) hcause⟩
      · rw [hread, hread']
        exact ⟨hdoc, hitems, rfl⟩
    · exact ⟨rfl, .cons hitem hitems, rfl⟩

end

/-! ## Modules -/

namespace Module

/-- The draft in which a source ends, with the header and the documentation that
    were read before. -/
def draftOf (tokens : List Token) : ModuleHeader × Option (Located String) × Draft :=
  let misplaced := skipMisplaced (itemsOf tokens)
  let header := takeHeader misplaced.1
  let doc := takeDoc header.2.1
  (header.1, doc.1,
    (doc.2.1.foldl (Draft.add header.1.kind)
      (.start (misplaced.2 ++ header.2.2 ++ doc.2.2))).finish)

theorem ofTokens_eq (tokens : List Token) :
    ofTokens tokens =
      let (header, doc, draft) := draftOf tokens
      if draft.errors.isEmpty then
        .ok ⟨header, doc, draft.imports.toList, draft.declarations.toList,
          (firstSpan tokens).combine (lastSpan tokens)⟩
      else .error draft.errors.toList := rfl

variable {tokens tokens' : List Token}

theorem draftOf_alike (h : List.Forall₂ Token.SameLayout tokens tokens') :
    (draftOf tokens).1.unplaced = (draftOf tokens').1.unplaced ∧
      (draftOf tokens).2.1.map Located.unplaced = (draftOf tokens').2.1.map Located.unplaced ∧
      (draftOf tokens).2.2.Alike (draftOf tokens').2.2 := by
  have hitems := Item.cut_sameLayout (takeWhile_sameLayout (· != .eof) h)
  obtain ⟨hplaced, hmisplaced⟩ := skipMisplaced_alike hitems
  obtain ⟨hheader, hbehind, hinHeader⟩ := takeHeader_alike hplaced
  obtain ⟨hdoc, hrest, hinDoc⟩ := takeDoc_alike hbehind
  refine ⟨hheader, hdoc, .finish ?_⟩
  unfold itemsOf
  rw [(ModuleHeader.mk.inj hheader).1]
  refine .addAll _ (.start ?_) hrest
  rw [List.map_append, List.map_append, List.map_append, List.map_append, hmisplaced, hinHeader,
    hinDoc]

/-- **Layout does not matter.** Of two lists of tokens that agree one by one in kind
    and in whether they stand in the first column, either both are modules, the
    same but for places, or both are none, and then the same is reported. -/
theorem ofTokens_of_sameLayout (h : List.Forall₂ Token.SameLayout tokens tokens') :
    (∃ m m', ofTokens tokens = .ok m ∧ ofTokens tokens' = .ok m' ∧ m.unplaced = m'.unplaced) ∨
      ∃ errors errors', ofTokens tokens = .error errors ∧ ofTokens tokens' = .error errors' ∧
        errors.map (·.message) = errors'.map (·.message) := by
  obtain ⟨hheader, hdoc, hdraft⟩ := draftOf_alike h
  have hcauses := congrArg Array.toList hdraft.causes
  simp only [Array.toList_map] at hcauses
  have hempty : (draftOf tokens).2.2.errors.isEmpty = (draftOf tokens').2.2.errors.isEmpty := by
    have hsize := congrArg Array.size hdraft.causes
    simp only [Array.size_map] at hsize
    simp only [Array.isEmpty, hsize]
  rw [ofTokens_eq, ofTokens_eq]
  dsimp only
  rw [hempty]
  split
  · refine .inl ⟨_, _, rfl, rfl, ?_⟩
    have himports := congrArg Array.toList hdraft.imports
    have hdeclarations := congrArg Array.toList hdraft.declarations
    simp only [Array.toList_map] at himports hdeclarations
    simp only [unplaced, hheader, hdoc, himports, hdeclarations]
  · refine .inr ⟨_, _, rfl, rfl, ?_⟩
    have hmessages := congrArg (List.map SyntaxCause.message) hcauses
    rwa [List.map_map, List.map_map] at hmessages

/-- A definition on one line. -/
def narrowTokens : List Token :=
  ((Token.ofSource "module A exposing (..)\nx y = y").toOption).getD []

/-- The same definition on two lines, behind blank lines and comments. -/
def spreadTokens : List Token :=
  ((Token.ofSource
    "module A exposing -- all\n  (..)\n\n\x7b- of y -\x7d\nx y\n      = y").toOption).getD []

theorem ofTokens_of_sameLayout_spread :
    List.Forall₂ Token.SameLayout narrowTokens spreadTokens ∧ narrowTokens ≠ spreadTokens ∧
      ∃ m m', ofTokens narrowTokens = .ok m ∧ ofTokens spreadTokens = .ok m' ∧
        m.unplaced = m'.unplaced := by
  have hlayout : List.Forall₂ Token.SameLayout narrowTokens spreadTokens := by decide +kernel
  have hgood : (ofTokens narrowTokens).isOk = true := by decide +kernel
  refine ⟨hlayout, by decide +kernel, ?_⟩
  rcases ofTokens_of_sameLayout hlayout with hmodules | ⟨errors, _, herrors, -⟩
  · exact hmodules
  · rw [herrors] at hgood
    cases hgood

end Module

end ElmIntake
