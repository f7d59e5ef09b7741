import ElmIntake.Proofs.Syntax.Role
import ElmIntake.Proofs.Token.Pieces
import ElmIntake.Syntax.Outcome
import Mathlib.Data.List.Forall2

/-! # What becomes of top-level items

    In a source that is accepted nothing is lost, doubled or moved: imports and
    declarations are what the items of these roles read as, in order, and
    documentation and signatures go to the declaration that they wait for.

    The reading of a source keeps a draft with what waits for a declaration. The
    invariant says what waits, in terms of the items that were read. -/

namespace ElmIntake

/-- **What a module has of the items of its source.** -/
structure Module.Accounts (m : Module) (items : List Item) : Prop where
  /-- Every item starts in the first column, and nowhere else does a token
      stand there. -/
  columns : ∀ item ∈ items, item.first.inFirstColumn = true ∧
    ∀ t ∈ item.rest, t.inFirstColumn = false
  roles : ∀ item ∈ items, ∃ role, item.role? = some role
  /-- Documentation comments are items of a single token. -/
  docs : ∀ item ∈ items, item.role? = some .doc → ∃ doc, item.doc? = some doc
  /-- Only the first item can be a header. -/
  header_first : ∀ item ∈ items.tail, item.role? ≠ some .header
  header : ∀ item ∈ items.head?, item.role? = some .header →
    Reader.header.onTokens item.tokens = .ok m.header
  implicit : (∀ item ∈ items.head?, item.role? ≠ some .header) → m.header = .implicit
  documentation : m.documentation =
    ((Item.behind .header items).head?.filter (·.role? = some .doc)).bind Item.doc?
  imports : List.Forall₂ (fun item i => Reader.import_.onTokens item.tokens = .ok i)
    (items.filter (·.role? = some .import_)) m.imports
  declarations : List.Forall₂ (fun s d => Item.ReadsAs m.header.kind s.1 s.2 d)
    (Item.declarations (Item.behind .doc (Item.behind .header items))) m.declarations
  ordered : items.Pairwise Item.MayPrecede

/-! ## The beginning -/

theorem skipMisplaced_cases {items items' : List Item} (h : skipMisplaced items = (items', [])) :
    items' = items ∧ ∀ item ∈ items.head?, item.first.inFirstColumn = true := by
  unfold skipMisplaced at h
  split at h
  · cases h
    exact ⟨rfl, by simp⟩
  · split at h
    · next hcolumn =>
      cases h
      exact ⟨rfl, by simpa using hcolumn⟩
    · cases h

theorem startsWithHeader_of_role {item : Item} {items : List Item}
    (h : item.role? = some .header) : startsWithHeader (item :: items) = true := by
  obtain ⟨first, rest⟩ := item
  unfold Item.role? Item.second? at h
  unfold startsWithHeader Item.allTokens Item.tokens
  split at h
  all_goals try cases h
  · next hfirst => simp_all
  · next hfirst => simp_all
  · next hfirst hsecond =>
    cases rest with
    | nil => cases hsecond
    | cons t rest => simp_all

/-- A first item that reads as a header is one. -/
theorem role_of_header {item : Item} {items : List Item} {header : ModuleHeader}
    (hstarts : startsWithHeader (item :: items) = true)
    (hread : Reader.header.onTokens item.tokens = .ok header) : item.role? = some .header := by
  obtain ⟨first, rest⟩ := item
  unfold startsWithHeader Item.allTokens at hstarts
  unfold Item.role? Item.second?
  cases rest with
  | nil =>
    have hport : first.kind ≠ .keyword .portWord := fun h => Reader.header_port_alone h hread
    simp only [Item.tokens, List.flatMap_cons, List.cons_append, List.nil_append,
      List.map_cons] at hstarts
    split at hstarts <;> simp_all
  | cons t rest =>
    simp only [Item.tokens, List.flatMap_cons, List.cons_append, List.map_cons] at hstarts
    split at hstarts <;> simp_all

theorem takeHeader_cases {items items' : List Item} {header : ModuleHeader}
    (h : takeHeader items = (header, items', [])) :
    items' = Item.behind .header items ∧
      (∀ item ∈ items.head?, item.role? = some .header →
        Reader.header.onTokens item.tokens = .ok header) ∧
      ((∀ item ∈ items.head?, item.role? ≠ some .header) → header = .implicit) := by
  unfold takeHeader at h
  cases items with
  | nil =>
    cases hstarts : startsWithHeader [] <;> rw [hstarts] at h <;> cases h <;> simp [Item.behind]
  | cons item items =>
    cases hstarts : startsWithHeader (item :: items) with
    | true =>
      rw [hstarts] at h
      dsimp only at h
      cases hread : Reader.header.onTokens item.tokens with
      | error e =>
        rw [hread] at h
        cases h
      | ok header' =>
        rw [hread] at h
        cases h
        have hrole := role_of_header hstarts hread
        simp [Item.behind, hrole, hread]
    | false =>
      rw [hstarts] at h
      cases h
      have hrole : item.role? ≠ some .header := fun hrole => by
        rw [startsWithHeader_of_role hrole] at hstarts
        cases hstarts
      simp [Item.behind, hrole]

/-- An item that reads as a documentation comment is nothing else. -/
theorem readDoc_of_doc {item : Item} {text : String} {doc : Option (Located String)}
    (hfirst : item.first.kind = .doc text) (h : readDoc item = .ok doc) :
    doc = item.doc? ∧ ∃ d, item.doc? = some d := by
  unfold readDoc at h
  unfold Item.doc?
  rw [hfirst] at h ⊢
  cases hrest : item.rest with
  | nil =>
    rw [hrest] at h
    cases h
    exact ⟨rfl, _, rfl⟩
  | cons t rest =>
    rw [hrest] at h
    cases h

theorem takeDoc_cases {items items' : List Item} {doc : Option (Located String)}
    (h : takeDoc items = (doc, items', [])) :
    items' = Item.behind .doc items ∧
      doc = (items.head?.filter (·.role? = some .doc)).bind Item.doc? ∧
      ∀ item ∈ items.head?, item.role? = some .doc → ∃ doc, item.doc? = some doc := by
  unfold takeDoc at h
  cases items with
  | nil =>
    cases h
    exact ⟨rfl, rfl, by simp⟩
  | cons item items =>
    dsimp only at h
    split at h
    · next text hfirst =>
      have hrole : item.role? = some .doc := Item.role_eq_doc_iff.2 ⟨text, hfirst⟩
      cases hread : readDoc item with
      | error e =>
        rw [hread] at h
        cases h
      | ok doc' =>
        rw [hread] at h
        cases h
        obtain ⟨hdoc, hsome⟩ := readDoc_of_doc hfirst hread
        simp [Item.behind, Option.filter, hrole, hdoc, hsome]
    · next hfirst =>
      cases h
      have hrole : item.role? ≠ some .doc := fun hrole => by
        obtain ⟨text, htext⟩ := Item.role_eq_doc_iff.1 hrole
        exact hfirst text htext
      simp [Item.behind, Option.filter, hrole]

/-! ## Adding items -/

namespace Draft

/-- What adding an item does to a draft, if nothing is reported. -/
inductive Adds (kind : ModuleKind) (d : Draft) (item : Item) : Draft → Prop where
  | doc {doc : Located String} :
      item.role? = some .doc → item.doc? = some doc →
      Adds kind d item { d with pendingDoc := some doc }
  | import_ {i : Import} :
      item.role? = some .import_ → d.pastImports = false →
      Reader.import_.onTokens item.tokens = .ok i →
      Adds kind d item { d with imports := d.imports.push i, pendingDoc := none }
  | signature {s : Signature} :
      item.role? = some .signature → Reader.signature.onTokens item.tokens = .ok s →
      Adds kind d item { d with pastImports := true, pendingSignature := some s }
  | declaration {declaration : Declaration} :
      item.role? = some .declaration →
      (Reader.declaration kind d.pendingDoc d.pendingSignature).onTokens item.tokens =
        .ok declaration →
      Adds kind d item
        { d with
          pastImports := true
          pendingDoc := none
          pendingSignature := none
          declarations := d.declarations.push declaration }

variable {kind : ModuleKind} {d : Draft} {item : Item}

theorem errors_report_ne (d : Draft) (e : SyntaxError) : (d.report e).errors ≠ #[] :=
  Array.push_ne_empty

/-- Nothing is reported of a signature only if there is none, or if it is that of
    the item. -/
theorem settleSignature_of_errors {first : TokenKind}
    (h : (d.settleSignature first).errors = #[]) :
    d.settleSignature first = d ∧
      ∀ s, d.pendingSignature = some s → first = .lowerName s.name.node := by
  unfold settleSignature at h ⊢
  split at h
  · next hnone => exact ⟨rfl, fun s hs => by rw [hnone] at hs; cases hs⟩
  · next s hsome =>
    split at h
    · next hfirst =>
      refine ⟨if_pos hfirst, fun s' hs' => ?_⟩
      rw [hsome, Option.some.injEq] at hs'
      rw [← hs', hfirst]
    · exact absurd h (errors_report_ne _ _)

theorem adds_of_addDoc {text : String} (hdoc : item.first.kind = .doc text)
    (h : (d.addDoc item).errors = #[]) : d.errors = #[] ∧ Adds kind d item (d.addDoc item) := by
  have hrole : item.role? = some .doc := by
    unfold Item.role?
    rw [hdoc]
  unfold addDoc readDoc at h ⊢
  rw [hdoc] at h ⊢
  cases hrest : item.rest with
  | nil =>
    rw [hrest] at h
    have hdoc? : item.doc? = some ⟨text, item.first.span⟩ := by
      unfold Item.doc?
      rw [hdoc, hrest]
    exact ⟨h, .doc hrole hdoc?⟩
  | cons t rest =>
    rw [hrest] at h
    exact absurd h (errors_report_ne _ _)

theorem adds_of_addImport (himport : item.first.kind = .keyword .importWord)
    (h : (d.addImport item).errors = #[]) :
    d.errors = #[] ∧ Adds kind d item (d.addImport item) := by
  have hrole : item.role? = some .import_ := by
    unfold Item.role?
    rw [himport]
  unfold addImport at h ⊢
  split at h
  · exact absurd h (errors_report_ne _ _)
  · next hpast =>
    rw [if_neg hpast]
    cases hread : Reader.import_.onTokens item.tokens with
    | error e =>
      rw [hread] at h
      exact absurd h (errors_report_ne _ _)
    | ok i =>
      rw [hread] at h
      exact ⟨h, .import_ hrole (by simpa using hpast) hread⟩

theorem adds_of_addSignature (hrole : item.role? = some .signature)
    (h : (d.addSignature item).errors = #[]) :
    d.errors = #[] ∧ Adds kind d item (d.addSignature item) := by
  unfold addSignature at h ⊢
  cases hread : Reader.signature.onTokens item.tokens with
  | error e =>
    rw [hread] at h
    exact absurd h (errors_report_ne _ _)
  | ok s =>
    rw [hread] at h
    exact ⟨h, .signature hrole hread⟩

/-- What no other role claims is a declaration if it reads as one. -/
theorem adds_of_addDeclaration
    (hother : ∀ role, item.role? = some role → role = .declaration)
    (h : (d.addDeclaration kind item).errors = #[]) :
    d.errors = #[] ∧ Adds kind d item (d.addDeclaration kind item) := by
  unfold addDeclaration at h ⊢
  dsimp only at h ⊢
  cases hread : (Reader.declaration kind d.pendingDoc d.pendingSignature).onTokens item.tokens with
  | error e =>
    rw [hread] at h
    exact absurd h (errors_report_ne _ _)
  | ok declaration =>
    rw [hread] at h
    -- Whatever reads as a declaration begins like one, which gives it a role.
    have hsome : item.role?.isSome = true := by
      unfold Item.role?
      rcases Reader.first_of_declaration hread with hfirst | hfirst | hfirst | ⟨name, hfirst⟩
      · rw [hfirst]
        rfl
      · rw [hfirst]
        split <;> simp_all
      · rw [hfirst]
        rfl
      · rw [hfirst]
        split <;> simp_all
    obtain ⟨role, hrole⟩ := Option.isSome_iff_exists.1 hsome
    exact ⟨h, .declaration (hother role hrole ▸ hrole) hread⟩

/-- **One item.** If nothing is reported, then the item was added as its role
    says, and a signature that waited is that of the item. -/
theorem adds_of_add (h : (d.add kind item).errors = #[]) :
    d.errors = #[] ∧ Adds kind d item (d.add kind item) ∧
      ∀ s, d.pendingSignature = some s → item.first.kind = .lowerName s.name.node := by
  have hadds : (d.settleSignature item.first.kind).errors = #[] ∧
      Adds kind (d.settleSignature item.first.kind) item (d.add kind item) := by
    -- An item that cannot be where it is would have been reported.
    unfold add at h ⊢
    dsimp only at h ⊢
    split at h
    · next hfirst => exact adds_of_addDoc hfirst h
    · next hfirst => exact adds_of_addImport hfirst h
    · exact absurd h (errors_report_ne _ _)
    · exact absurd h (errors_report_ne _ _)
    · exact absurd h (errors_report_ne _ _)
    · next hfirst hsecond =>
      refine adds_of_addSignature ?_ h
      unfold Item.role?
      rw [hfirst, hsecond]
    · next hdoc himport hmodule heffect hport hsignature =>
      refine adds_of_addDeclaration (fun role hrole => ?_) h
      unfold Item.role? at hrole
      split at hrole
      all_goals simp_all
  obtain ⟨herrors, hadds⟩ := hadds
  obtain ⟨hsettle, hsignature⟩ := settleSignature_of_errors herrors
  rw [hsettle] at herrors hadds
  exact ⟨herrors, hadds, hsignature⟩

end Draft

/-! ## The invariant -/

/-- What a draft holds once the items `done` behind the header have been read. -/
structure Draft.Reads (kind : ModuleKind) (done : List Item) (d : Draft) : Prop where
  roles : ∀ item ∈ done, ∃ role, item.role? = some role ∧ role ≠ .header
  docs : ∀ item ∈ done, item.role? = some .doc → ∃ doc, item.doc? = some doc
  imports : List.Forall₂ (fun item i => Reader.import_.onTokens item.tokens = .ok i)
    (done.filter (·.role? = some .import_)) d.imports.toList
  declarations : List.Forall₂ (fun s d => Item.ReadsAs kind s.1 s.2 d)
    (Item.declarations done) d.declarations.toList
  ordered : done.Pairwise Item.MayPrecede
  pastImports : (∃ item ∈ done, item.role? = some .signature ∨ item.role? = some .declaration) →
    d.pastImports = true
  pendingDoc : d.pendingDoc = Item.waitingDoc done.reverse
  pendingSignature : d.pendingSignature = Item.waitingSignature done.reverse

namespace Draft

variable {kind : ModuleKind} {d : Draft} {item : Item} {done items : List Item}

theorem reads_start (kind : ModuleKind) (errors : List SyntaxError) :
    Reads kind [] (start errors) :=
  ⟨by simp, by simp, .nil, .nil, .nil, by simp, rfl, rfl⟩

/-- What the roles of the items alone say after one more item. -/
theorem Reads.roles_append (hr : Reads kind done d) {role : Role} (hrole : item.role? = some role)
    (hne : role ≠ .header) :
    ∀ i ∈ done ++ [item], ∃ role, i.role? = some role ∧ role ≠ .header := by
  intro i hi
  rcases List.mem_append.1 hi with hi | hi
  · exact hr.roles i hi
  · rw [List.mem_singleton.1 hi]
    exact ⟨role, hrole, hne⟩

theorem Reads.docs_append (hr : Reads kind done d)
    (h : item.role? = some .doc → ∃ doc, item.doc? = some doc) :
    ∀ i ∈ done ++ [item], i.role? = some .doc → ∃ doc, i.doc? = some doc := by
  intro i hi
  rcases List.mem_append.1 hi with hi | hi
  · exact hr.docs i hi
  · rw [List.mem_singleton.1 hi]
    exact h

theorem Reads.ordered_append (hr : Reads kind done d)
    (h : item.role? = some .import_ → d.pastImports = false) :
    (done ++ [item]).Pairwise Item.MayPrecede := by
  refine List.pairwise_append.2 ⟨hr.ordered, List.pairwise_singleton _ _, fun a ha b hb => ?_⟩
  rw [List.mem_singleton.1 hb]
  intro hpast himport
  have htrue := hr.pastImports ⟨a, ha, hpast⟩
  rw [h himport] at htrue
  cases htrue

theorem Reads.imports_append (hr : Reads kind done d) (hrole : item.role? ≠ some .import_) :
    List.Forall₂ (fun item i => Reader.import_.onTokens item.tokens = .ok i)
      ((done ++ [item]).filter (·.role? = some .import_)) d.imports.toList := by
  simpa [List.filter_append, hrole] using hr.imports

theorem Reads.declarations_append (hr : Reads kind done d)
    (hrole : item.role? ≠ some .declaration) :
    List.Forall₂ (fun s d => Item.ReadsAs kind s.1 s.2 d)
      (Item.declarations (done ++ [item])) d.declarations.toList := by
  rw [Item.declarations_append_of_ne hrole]
  exact hr.declarations

/-- **The step.** -/
theorem Reads.add (hr : Reads kind done d) (h : (d.add kind item).errors = #[]) :
    Reads kind (done ++ [item]) (d.add kind item) := by
  obtain ⟨-, hadds, hsettled⟩ := adds_of_add h
  -- Where the item is no definition, no signature can have waited for it.
  have hnone : item.role? ≠ some .signature → item.role? ≠ some .declaration →
      d.pendingSignature = none := by
    intro hsignature hdeclaration
    cases hpending : d.pendingSignature with
    | none => rfl
    | some s =>
      rcases Item.role_of_lowerName (hsettled s hpending) with hrole | hrole
      · exact absurd hrole hsignature
      · exact absurd hrole hdeclaration
  generalize d.add kind item = d' at hadds
  cases hadds with
  | @doc doc hrole hdoc =>
    exact
      { roles := hr.roles_append hrole nofun
        docs := hr.docs_append fun _ => ⟨doc, hdoc⟩
        imports := hr.imports_append (by simp [hrole])
        declarations := hr.declarations_append (by simp [hrole])
        ordered := hr.ordered_append (by simp [hrole])
        pastImports := by simpa [or_and_right, exists_or, hrole] using hr.pastImports
        pendingDoc := by simp [Item.waitingDoc_cons, hrole, hdoc]
        pendingSignature := by
          simp [Item.waitingSignature_cons, hrole, hnone (by simp [hrole]) (by simp [hrole])] }
  | @import_ i hrole hpast hread =>
    have himports := List.rel_append hr.imports (.cons hread .nil)
    exact
      { roles := hr.roles_append hrole nofun
        docs := hr.docs_append (by simp [hrole])
        imports := by simpa [List.filter_append, hrole] using himports
        declarations := hr.declarations_append (by simp [hrole])
        ordered := hr.ordered_append fun _ => hpast
        pastImports := by simpa [or_and_right, exists_or, hrole] using hr.pastImports
        pendingDoc := by simp [Item.waitingDoc_cons, hrole]
        pendingSignature := by
          simp [Item.waitingSignature_cons, hrole, hnone (by simp [hrole]) (by simp [hrole])] }
  | @signature s hrole hread =>
    exact
      { roles := hr.roles_append hrole nofun
        docs := hr.docs_append (by simp [hrole])
        imports := hr.imports_append (by simp [hrole])
        declarations := hr.declarations_append (by simp [hrole])
        ordered := hr.ordered_append (by simp [hrole])
        pastImports := fun _ => rfl
        pendingDoc := by simpa [Item.waitingDoc_cons, hrole] using hr.pendingDoc
        pendingSignature := by
          simp [Item.waitingSignature_cons, hrole, hread, Except.toOption] }
  | @declaration declaration hrole hread =>
    rw [hr.pendingDoc, hr.pendingSignature] at hread
    have hreads : Item.ReadsAs kind done.reverse item declaration :=
      ⟨hread, Reader.declaration_ensures.onTokens hread⟩
    have hlast : List.Forall₂ (fun s d => Item.ReadsAs kind s.1 s.2 d) [(done.reverse, item)]
        [declaration] := .cons hreads .nil
    have hdeclarations := List.rel_append hr.declarations hlast
    exact
      { roles := hr.roles_append hrole nofun
        docs := hr.docs_append (by simp [hrole])
        imports := hr.imports_append (by simp [hrole])
        declarations := by
          rw [Item.declarations_append_self hrole]
          simpa using hdeclarations
        ordered := hr.ordered_append (by simp [hrole])
        pastImports := fun _ => rfl
        pendingDoc := by simp [Item.waitingDoc_cons, hrole]
        pendingSignature := by simp [Item.waitingSignature_cons, hrole] }

/-- Nothing that was reported is ever taken back. -/
theorem errors_of_foldl (h : (items.foldl (Draft.add kind) d).errors = #[]) : d.errors = #[] := by
  induction items generalizing d with
  | nil => exact h
  | cons item items ih => exact (adds_of_add (ih h)).1

/-- **The run.** The induction is on the items that are still to be read. -/
theorem Reads.foldl (hr : Reads kind done d)
    (h : (items.foldl (Draft.add kind) d).errors = #[]) :
    Reads kind (done ++ items) (items.foldl (Draft.add kind) d) := by
  induction items generalizing done d with
  | nil => simpa using hr
  | cons item items ih =>
    have hadd : (d.add kind item).errors = #[] := errors_of_foldl h
    have hrest := ih (hr.add hadd) h
    rwa [List.append_assoc] at hrest

/-- Nothing is reported at the end only if nothing is left to be done. -/
theorem finish_of_errors (h : d.finish.errors = #[]) :
    d.errors = #[] ∧ d.finish = d := by
  unfold finish at h ⊢
  split at h
  · next hnone => exact ⟨h, rfl⟩
  · exact absurd h (errors_report_ne _ _)

end Draft

/-! ## Whole sources -/

theorem Draft.errors_start (errors : List SyntaxError) :
    (start errors).errors = #[] ↔ errors = [] := by
  simp [start]

/-- A source that is accepted accounts for its items. -/
theorem Module.ofTokens_accounts {tokens : List Token} {m : Module} (h : ofTokens tokens = .ok m) :
    m.Accounts (itemsOf tokens) := by
  unfold ofTokens at h
  rcases hskip : skipMisplaced (itemsOf tokens) with ⟨items, misplaced⟩
  rcases hheader : takeHeader items with ⟨header, afterHeader, inHeader⟩
  rcases hdoc : takeDoc afterHeader with ⟨doc, body, inDoc⟩
  simp only [hskip, hheader, hdoc] at h
  split at h
  · next herrors =>
    cases h
    -- Nothing was reported at the end, so nothing was reported anywhere.
    obtain ⟨herrors, hfinish⟩ := Draft.finish_of_errors (Array.isEmpty_iff.1 herrors)
    have hstart := (Draft.errors_start _).1 (Draft.errors_of_foldl herrors)
    simp only [List.append_eq_nil_iff] at hstart
    obtain ⟨⟨rfl, rfl⟩, rfl⟩ := hstart
    have hreads := (Draft.reads_start header.kind _).foldl herrors
    rw [List.nil_append] at hreads
    obtain ⟨rfl, hfirst⟩ := skipMisplaced_cases hskip
    obtain ⟨rfl, hread, himplicit⟩ := takeHeader_cases hheader
    obtain ⟨rfl, hdocumentation, hdocs⟩ := takeDoc_cases hdoc
    rw [hfinish]
    constructor
    case columns => exact Item.cut_columns_of_first hfirst
    case roles =>
      intro item hitem
      rcases Item.mem_behind .header hitem with ⟨-, hrole⟩ | hitem
      · exact ⟨.header, hrole⟩
      · rcases Item.mem_behind .doc hitem with ⟨-, hrole⟩ | hitem
        · exact ⟨.doc, hrole⟩
        · obtain ⟨role, hrole, -⟩ := hreads.roles item hitem
          exact ⟨role, hrole⟩
    case docs =>
      intro item hitem hdocRole
      rcases Item.mem_behind .header hitem with ⟨-, hrole⟩ | hitem
      · rw [hrole] at hdocRole
        cases hdocRole
      · rcases Item.mem_behind .doc hitem with ⟨hhead, -⟩ | hitem
        · exact hdocs item hhead hdocRole
        · exact hreads.docs item hitem hdocRole
    case header_first =>
      intro item hitem hheaderRole
      rcases Item.mem_behind .doc (Item.mem_behind_of_mem_tail hitem) with ⟨-, hrole⟩ | hitem
      · rw [hrole] at hheaderRole
        cases hheaderRole
      · obtain ⟨role, hrole, hne⟩ := hreads.roles item hitem
        rw [hrole, Option.some.injEq] at hheaderRole
        exact hne hheaderRole
    case header => exact hread
    case implicit => exact himplicit
    case documentation => exact hdocumentation
    case imports =>
      have himports := hreads.imports
      rwa [Item.filter_behind (by decide : Role.import_ ≠ .doc),
        Item.filter_behind (by decide : Role.import_ ≠ .header)] at himports
    case declarations => exact hreads.declarations
    case ordered =>
      refine Item.pairwise_of_behind (fun a b hrole => ?_)
        (Item.pairwise_of_behind (fun a b hrole => ?_) hreads.ordered)
      · simp [Item.MayPrecede, hrole]
      · simp [Item.MayPrecede, hrole]
  · cases h

/-- A module is made of the tokens of its source, which are cut into items as far as the
    end. -/
theorem Module.exists_ofTokens {source : String} {m : Module} (h : ofSource source = .ok m) :
    ∃ stream last, Token.ofSource source = .ok (stream ++ [last]) ∧ last.kind = .eof ∧
      (∀ t ∈ stream, t.kind ≠ .eof) ∧ ofTokens (stream ++ [last]) = .ok m ∧
      itemsOf (stream ++ [last]) = Item.cut stream := by
  unfold ofSource at h
  cases htokens : Token.ofSource source with
  | error e =>
    rw [htokens] at h
    cases h
  | ok tokens =>
    simp only [htokens] at h
    obtain ⟨stream, last, rfl, hlast, hstream⟩ := Token.exists_stream htokens
    have hitems : itemsOf (stream ++ [last]) = Item.cut stream := by
      have hall : ∀ t ∈ stream, (t.kind != .eof) = true := fun t ht => by simpa using hstream t ht
      unfold itemsOf
      rw [List.takeWhile_append_of_pos hall]
      simp [hlast]
    cases hmodule : ofTokens (stream ++ [last]) with
    | error es =>
      rw [hmodule] at h
      cases h
    | ok m' =>
      rw [hmodule] at h
      cases h
      exact ⟨stream, last, rfl, hlast, hstream, hmodule, hitems⟩

/-- **Nothing is lost, doubled or moved.** The tokens of a source that is accepted
    are cut into items, which joined together are these tokens again, and the
    module accounts for every one of them. -/
theorem Module.ofSource_accounts {source : String} {m : Module} (h : ofSource source = .ok m) :
    ∃ stream last, Token.ofSource source = .ok (stream ++ [last]) ∧ last.kind = .eof ∧
      (∀ t ∈ stream, t.kind ≠ .eof) ∧ Item.allTokens (Item.cut stream) = stream ∧
      m.Accounts (Item.cut stream) := by
  obtain ⟨stream, last, htokens, hlast, hstream, hmodule, hitems⟩ := exists_ofTokens h
  have haccounts := ofTokens_accounts hmodule
  rw [hitems] at haccounts
  exact ⟨stream, last, htokens, hlast, hstream, Item.allTokens_cut stream, haccounts⟩

/-- A source with items of all roles. -/
def everyRole : String :=
  "module A exposing (..)\n\n\x7b-| A. -\x7d\n\nimport B\n\n\x7b-| One. -\x7d\n" ++
    "f : Int\nf =\n    1\n\ntype T = T\n"

theorem Module.ofSource_accounts_everyRole :
    ∃ m, ofSource everyRole = .ok m ∧ m.documentation.map (·.node) = some " A. " ∧
      m.declarations.map (·.documentation) = [some " One. ", none] ∧
      ∃ stream last, Token.ofSource everyRole = .ok (stream ++ [last]) ∧
        m.Accounts (Item.cut stream) := by
  have hdocs : (ofSource everyRole).toOption.map
      (fun m => (m.documentation.map (·.node), m.declarations.map (·.documentation))) =
        some (some " A. ", [some " One. ", none]) := by decide +kernel
  cases hmodule : ofSource everyRole with
  | error ds =>
    rw [hmodule] at hdocs
    cases hdocs
  | ok m =>
    rw [hmodule] at hdocs
    obtain ⟨hdoc, hdeclarations⟩ := Prod.mk.inj (Option.some.inj hdocs)
    obtain ⟨stream, last, htokens, -, -, -, haccounts⟩ := ofSource_accounts hmodule
    exact ⟨m, rfl, hdoc, hdeclarations, stream, last, htokens, haccounts⟩

end ElmIntake
