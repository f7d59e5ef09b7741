import ElmIntake.Proofs.Syntax.Layout
import ElmIntake.Proofs.Syntax.Spans
import Mathlib.Data.List.Chain

/-! # Signatures and what stands behind them

    A signature waits for the item behind it, and is reported unless that item
    starts with its name. So in a source that is accepted no signature is followed
    by something else, and the definition behind a signature has taken it.

    The test is of the name alone, which a second signature of this name passes as
    well: it takes the place of the first one, of which nothing is left in the
    module. These doubled signatures are the only ones that no definition has
    (`Module.Settles`).

    The argument is an invariant of the reading (`Draft.Pairs`): neighbours bear the
    same name, and every signature that was read is in a declaration, is waiting, or
    has had its place taken. -/

namespace ElmIntake

/-! ## What the readers give to a name -/

namespace Reader

variable {t : Token} {rest : List Token}

/-- Whatever a reader gives from anywhere, it gives from a certain place. -/
theorem Ensures.moves {α : Type} {reader : Reader α} {P : α → Prop} (h : Ensures reader P)
    (p : Cursor → Prop) : Moves p (fun _ => True) reader P := by
  intro c a c' _ ha
  exact ⟨trivial, h c a c' ha⟩

/-- What a reader does from a place before a token it does at the start of an
    item. -/
theorem Moves.start {α : Type} {q : Cursor → Prop} {reader : Reader α} {P : α → Prop}
    (h : Moves (·.ahead = t :: rest) q reader P) : Moves (· = .start (t :: rest)) q reader P := by
  intro c a c' hc ha
  exact h c a c' (by rw [hc]; rfl) ha

/-- The name that is declared is that of the token ahead. -/
theorem declarationName_moves_first :
    Moves (·.ahead = t :: rest) (fun _ => True) declarationName
      fun name => t.kind = .lowerName name.node := by
  rintro ⟨before, ahead⟩ a c' hc ha
  cases hc
  obtain ⟨kind, span⟩ := t
  cases kind with
  | lowerName name =>
    change (if isDotted name = true then fail (.dottedDeclaration name)
      else (next .name >>= fun t => Pure.pure ⟨name, t.span⟩ : Reader Name)) _ = _ at ha
    split at ha
    · cases ha
    · cases ha
      exact ⟨trivial, rfl⟩
  | _ => cases ha

theorem signature_moves_first :
    Moves (·.ahead = t :: rest) (fun _ => True) signature
      fun s => t.kind = .lowerName s.name.node := by
  unfold signature
  refine here_moves.bind fun first _ => ?_
  refine declarationName_moves_first.bind fun name hname => ?_
  apply Ensures.moves
  exact .bind fun _ => .bind fun _ => .bind fun _ => .pure hname

theorem valueDeclaration_moves_first (doc : Option (Located String)) (sig : Option Signature) :
    Moves (·.ahead = t :: rest) (fun _ => True) (valueDeclaration doc sig)
      fun d => t.kind = .lowerName d.name.node := by
  unfold valueDeclaration
  refine here_moves.bind fun first _ => ?_
  refine declarationName_moves_first.bind fun name hname => ?_
  apply Ensures.moves
  exact .bind fun _ => .bind fun _ => .bind fun _ => .pure hname

/-- What starts with a name and is no signature is the definition of that name. -/
theorem value_of_declaration {kind : ModuleKind} {doc : Option (Located String)}
    {sig : Option Signature} {d : Declaration} {name : String}
    (hfirst : t.kind = .lowerName name)
    (h : (declaration kind doc sig).onTokens (t :: rest) = .ok d) :
    ∃ v, d = .value v ∧ v.name.node = name := by
  have hmoves : Moves (· = .start (t :: rest)) (fun _ => True) (declaration kind doc sig)
      fun d => ∃ v, d = .value v ∧ t.kind = .lowerName v.name.node := by
    unfold declaration
    refine Moves.get.bind fun c hc => ?_
    have hhead : c.ahead.head? = some t := by
      rw [hc]
      rfl
    rw [hhead]
    dsimp only
    rw [hfirst]
    dsimp only
    rw [← hfirst]
    exact (valueDeclaration_moves_first doc sig).start.bind fun v hv => .pure ⟨v, rfl, hv⟩
  obtain ⟨v, rfl, hv⟩ := hmoves.onTokens h
  rw [hfirst] at hv
  exact ⟨v, rfl, (TokenKind.lowerName.inj hv).symm⟩

end Reader

/-! ## Signatures among the items -/

namespace Item

variable {item : Item} {before items : List Item}

/-- The name whose type an item annotates: it starts with the name and a colon. -/
def annotated? (item : Item) : Option String :=
  match item.first.kind, item.second? with
  | .lowerName name, some .colon => some name
  | _, _ => none

theorem annotated?_eq_some_iff {name : String} :
    item.annotated? = some name ↔
      item.first.kind = .lowerName name ∧ item.role? = some .signature := by
  unfold annotated? role?
  constructor
  · intro h
    split at h
    · next hfirst hsecond => simp_all
    · cases h
  · rintro ⟨hfirst, hrole⟩
    rw [hfirst] at hrole ⊢
    split at hrole
    all_goals simp_all

/-- Is the last one of some items, given with the last one first, a signature? -/
def endsWithSignature (before : List Item) : Bool :=
  before.head?.any (·.role? = some .signature)

/-- The signatures that stand directly behind another one. -/
def doubled (items : List Item) : List (List Item × Item) :=
  (situated [] items).filter fun s => s.2.role? = some .signature ∧ endsWithSignature s.1 = true

theorem length_doubled_append (items : List Item) (item : Item) :
    (doubled (items ++ [item])).length = (doubled items).length +
      if item.role? = some .signature ∧ endsWithSignature items.reverse = true then 1 else 0 := by
  unfold doubled
  rw [situated_append, List.filter_append, List.length_append, List.append_nil]
  split <;> simp_all

/-- May `b` stand behind `a`? Behind a signature only an item of its name may. -/
def IsMetBy (a b : Item) : Prop :=
  ∀ name, a.annotated? = some name → b.first.kind = .lowerName name

/-- Something waits exactly behind a signature, if that can be read. -/
theorem length_waitingSignature
    (hread : ∀ i ∈ before, i.role? = some .signature →
      ∃ s, Reader.signature.onTokens i.tokens = .ok s) :
    (waitingSignature before).toList.length = if endsWithSignature before = true then 1 else 0 := by
  cases before with
  | nil => rfl
  | cons item before =>
    rw [waitingSignature_cons]
    by_cases hrole : item.role? = some .signature
    · obtain ⟨s, hs⟩ := hread item List.mem_cons_self hrole
      simp [endsWithSignature, hrole, hs, Except.toOption]
    · simp [endsWithSignature, hrole]

/-- What waits behind a signature bears its name. -/
theorem waitingSignature_of_annotated {name : String} (before : List Item)
    (h : item.annotated? = some name)
    (hread : ∃ s, Reader.signature.onTokens item.tokens = .ok s) :
    ∃ s, waitingSignature (item :: before) = some s ∧
      Reader.signature.onTokens item.tokens = .ok s ∧ s.name.node = name := by
  obtain ⟨s, hs⟩ := hread
  obtain ⟨hfirst, hrole⟩ := annotated?_eq_some_iff.1 h
  have hname : item.first.kind = .lowerName s.name.node :=
    Reader.signature_moves_first.start.onTokens hs
  refine ⟨s, ?_, hs, ?_⟩
  · rw [waitingSignature_cons, if_pos hrole, hs]
    rfl
  · rw [hfirst] at hname
    exact (TokenKind.lowerName.inj hname).symm

/-! ### Where a declaration comes among the others -/

theorem map_situated (before items : List Item) : (situated before items).map (·.2) = items := by
  induction items generalizing before with
  | nil => rfl
  | cons item items ih => simp [situated, ih]

theorem situated_append_cons (before items rest : List Item) (item : Item) :
    situated before (items ++ item :: rest) =
      situated before items ++ (items.reverse ++ before, item) ::
        situated (item :: (items.reverse ++ before)) rest := by
  induction items generalizing before with
  | nil => rfl
  | cons first items ih =>
    rw [List.cons_append, situated, ih, situated]
    simp

theorem length_declarations (items : List Item) :
    (declarations items).length = items.countP (·.role? = some .declaration) := by
  unfold declarations
  rw [← List.countP_eq_length_filter]
  conv_rhs => rw [← map_situated [] items, List.countP_map]
  rfl

theorem declarations_append_cons {rest : List Item} (h : item.role? = some .declaration) :
    ∃ others, declarations (items ++ item :: rest) =
      declarations items ++ (items.reverse, item) :: others := by
  unfold declarations
  rw [situated_append_cons, List.filter_append, List.filter_cons_of_pos (by simpa using h),
    List.append_nil]
  exact ⟨_, rfl⟩

theorem behind_append_cons {role : Role} {rest : List Item} (h : item.role? ≠ some role) :
    behind role (items ++ item :: rest) = behind role items ++ item :: rest := by
  cases items with
  | nil => exact behind_of_ne h
  | cons first items =>
    by_cases hfirst : first.role? = some role
    · rw [List.cons_append, behind_of_role hfirst, behind_of_role hfirst]
    · rw [List.cons_append, behind_of_ne hfirst, behind_of_ne hfirst, List.cons_append]

theorem countP_behind {role other : Role} (hne : other ≠ role) (items : List Item) :
    (behind role items).countP (·.role? = some other) = items.countP (·.role? = some other) := by
  rw [List.countP_eq_length_filter, List.countP_eq_length_filter, filter_behind hne]

/-- How many signatures are doubled hangs on the last item before only. -/
theorem length_doubled_congr (before other items : List Item)
    (h : endsWithSignature before = endsWithSignature other) :
    ((situated before items).filter fun s =>
        s.2.role? = some .signature ∧ endsWithSignature s.1 = true).length =
      ((situated other items).filter fun s =>
        s.2.role? = some .signature ∧ endsWithSignature s.1 = true).length := by
  induction items generalizing before other with
  | nil => rfl
  | cons item items ih =>
    have hrest := ih (item :: before) (item :: other) rfl
    simp only [situated, List.filter_cons, h]
    split
    · rw [List.length_cons, List.length_cons, hrest]
    · exact hrest

/-- A header or a comment in front doubles no signature. -/
theorem length_doubled_behind {role : Role} (hne : role ≠ .signature) (items : List Item) :
    (doubled (behind role items)).length = (doubled items).length := by
  cases items with
  | nil => rfl
  | cons item items =>
    by_cases hrole : item.role? = some role
    · rw [behind_of_role hrole]
      have hother : endsWithSignature [item] = false := by
        simp [endsWithSignature, hrole, hne]
      unfold doubled
      rw [situated, List.filter_cons_of_neg (by simp [hrole, hne])]
      exact length_doubled_congr [] [item] items hother.symm
    · rw [behind_of_ne hrole]

end Item

/-- What stands in one place of a list is made of what stands in this place of the
    other one. -/
theorem exists_of_forall₂_append_cons {α β : Type} {R : α → β → Prop} {before after : List α}
    {x : α} {ys : List β} (h : List.Forall₂ R (before ++ x :: after) ys) :
    ∃ earlier y later, ys = earlier ++ y :: later ∧ earlier.length = before.length ∧ R x y := by
  induction before generalizing ys with
  | nil =>
    cases h with
    | cons hfirst _ => exact ⟨[], _, _, rfl, rfl, hfirst⟩
  | cons first before ih =>
    cases h with
    | cons _ hrest =>
      obtain ⟨earlier, y, later, rfl, hlength, hR⟩ := ih hrest
      exact ⟨_ :: earlier, y, later, rfl, congrArg (· + 1) hlength, hR⟩

/-! ## The invariant -/

/-- What a draft has of the signatures among the items `done`. -/
structure Draft.Pairs (done : List Item) (d : Draft) : Prop where
  read : ∀ item ∈ done, item.role? = some .signature →
    ∃ s, Reader.signature.onTokens item.tokens = .ok s
  met : done.IsChain Item.IsMetBy
  /-- Every signature is in a declaration, is waiting, or has had its place taken by
      the next one. -/
  count : done.countP (·.role? = some .signature) =
    d.declarations.toList.countP (·.signature?.isSome) + (Item.doubled done).length +
      d.pendingSignature.toList.length

namespace Draft

variable {kind : ModuleKind} {d : Draft} {item : Item} {done items : List Item}

theorem pairs_start (errors : List SyntaxError) : Pairs [] (start errors) :=
  ⟨by simp, .nil, rfl⟩

theorem Pairs.read_append (hp : Pairs done d)
    (h : item.role? = some .signature → ∃ s, Reader.signature.onTokens item.tokens = .ok s) :
    ∀ i ∈ done ++ [item], i.role? = some .signature →
      ∃ s, Reader.signature.onTokens i.tokens = .ok s := by
  intro i hi
  rcases List.mem_append.1 hi with hi | hi
  · exact hp.read i hi
  · rw [List.mem_singleton.1 hi]
    exact h

/-- The neighbours of the item that is added: the one before it waits for its name,
    if it is a signature. -/
theorem Pairs.met_append (hp : Pairs done d) (hr : Reads kind done d)
    (h : ∀ s, d.pendingSignature = some s → item.first.kind = .lowerName s.name.node) :
    (done ++ [item]).IsChain Item.IsMetBy := by
  refine List.isChain_append.2 ⟨hp.met, .singleton _, ?_⟩
  intro last hlast next hnext name hname
  cases hnext
  obtain ⟨start, rfl⟩ := List.getLast?_eq_some_iff.1 hlast
  have hread := hp.read last (by simp) (Item.annotated?_eq_some_iff.1 hname).2
  obtain ⟨s, hwaits, -, rfl⟩ :=
    Item.waitingSignature_of_annotated start.reverse hname hread
  apply h s
  rw [hr.pendingSignature, List.reverse_concat, hwaits]

/-- A declaration has the signature that waited, if it bears its name. -/
theorem signature?_of_declaration {declaration : Declaration}
    (hfirst : ∀ s, d.pendingSignature = some s → item.first.kind = .lowerName s.name.node)
    (h : (Reader.declaration kind d.pendingDoc d.pendingSignature).onTokens item.tokens =
      .ok declaration) : declaration.signature? = d.pendingSignature := by
  have htakes := Reader.declaration_ensures.onTokens h
  cases hpending : d.pendingSignature with
  | some s =>
    obtain ⟨v, rfl, -⟩ := Reader.value_of_declaration (hfirst s hpending) h
    rw [← hpending]
    exact htakes.2
  | none =>
    cases declaration with
    | value v => exact htakes.2.trans hpending
    | _ => rfl

/-- **The step.** -/
theorem Pairs.add (hp : Pairs done d) (hr : Reads kind done d)
    (h : (d.add kind item).errors = #[]) : Pairs (done ++ [item]) (d.add kind item) := by
  obtain ⟨-, hadds, hfirst⟩ := adds_of_add h
  have hmet := hp.met_append hr hfirst
  have hcount := hp.count
  have hdoubled := Item.length_doubled_append done item
  generalize d.add kind item = d' at hadds
  cases hadds with
  | @doc doc hrole _ =>
    refine ⟨hp.read_append (by simp [hrole]), hmet, ?_⟩
    simpa [List.countP_append, hrole, hdoubled] using hcount
  | @import_ i hrole _ _ =>
    refine ⟨hp.read_append (by simp [hrole]), hmet, ?_⟩
    simpa [List.countP_append, hrole, hdoubled] using hcount
  | @signature s hrole hread =>
    refine ⟨hp.read_append fun _ => ⟨s, hread⟩, hmet, ?_⟩
    -- If one waited before, then it stood directly before this one.
    have hwaits : d.pendingSignature.toList.length =
        if Item.endsWithSignature done.reverse = true then 1 else 0 := by
      rw [hr.pendingSignature]
      apply Item.length_waitingSignature
      intro i hi
      exact hp.read i (List.mem_reverse.1 hi)
    simp only [hrole, true_and] at hdoubled
    simp only [List.countP_append, List.countP_singleton, hrole, decide_true, if_true, hcount,
      hdoubled, ← hwaits, Option.toList_some, List.length_singleton]
    omega
  | @declaration declaration hrole hread =>
    refine ⟨hp.read_append (by simp [hrole]), hmet, ?_⟩
    have hsignature := signature?_of_declaration hfirst hread
    have hnew : [declaration].countP (·.signature?.isSome) = d.pendingSignature.toList.length := by
      rw [List.countP_singleton, hsignature]
      cases d.pendingSignature <;> rfl
    simp only [List.countP_append, Array.toList_push, hnew, hdoubled, hcount]
    simp [hrole]
    omega

/-- **The run.** The induction is on the items that are still to be read. -/
theorem Pairs.foldl (hp : Pairs done d) (hr : Reads kind done d)
    (h : (items.foldl (Draft.add kind) d).errors = #[]) :
    Pairs (done ++ items) (items.foldl (Draft.add kind) d) := by
  induction items generalizing done d with
  | nil => simpa using hp
  | cons item items ih =>
    have hadd : (d.add kind item).errors = #[] := errors_of_foldl h
    have hrest := ih (hp.add hr hadd) (hr.add hadd) h
    rwa [List.append_assoc] at hrest

/-- At the end no signature may be waiting. -/
theorem pendingSignature_of_finish (h : d.finish.errors = #[]) : d.pendingSignature = none := by
  unfold finish at h
  split at h
  · next hnone => exact hnone
  · exact absurd h (errors_report_ne _ _)

end Draft

/-! ## Whole sources -/

namespace Module

variable {m : Module} {items : List Item} {tokens : List Token} {source : String}

/-- Is the item `next`, behind the items `before` and a signature, the definition that
    has this signature? -/
def Defines (m : Module) (before : List Item) (item next : Item) : Prop :=
  next.role? = some .declaration ∧
    ∃ s v earlier later, Reader.signature.onTokens item.tokens = .ok s ∧
      m.declarations = earlier ++ .value v :: later ∧
      earlier.length = before.countP (·.role? = some .declaration) ∧
      v.name.node = s.name.node ∧ v.signature = some s

/-- **What becomes of the signatures among the items of a source.** -/
structure Settles (m : Module) (items : List Item) : Prop where
  /-- At once behind the signature of a name there is an item of this name: another
      signature, or else the definition that has this one. -/
  met : ∀ before item after name, items = before ++ item :: after → item.annotated? = some name →
    ∃ next rest, after = next :: rest ∧ next.first.kind = .lowerName name ∧
      (next.role? = some .signature ∨ m.Defines before item next)
  /-- All signatures but those whose place was taken are in declarations. -/
  count : items.countP (·.role? = some .signature) =
    m.declarations.countP (·.signature?.isSome) + (Item.doubled items).length

/-- A definition is found by the items before it, as those behind the header and the
    documentation of the module are read. -/
theorem defines_of_reads {kind : ModuleKind} {d : Draft} {before rest : List Item}
    {item next : Item} {name : String}
    (hr : d.Reads kind (before ++ item :: next :: rest))
    (hp : d.Pairs (before ++ item :: next :: rest))
    (hname : item.annotated? = some name) (hnext : next.first.kind = .lowerName name)
    (hrole : next.role? = some .declaration) :
    ∃ s v earlier later, Reader.signature.onTokens item.tokens = .ok s ∧
      d.declarations.toList = earlier ++ .value v :: later ∧
      earlier.length = before.countP (·.role? = some .declaration) ∧
      v.name.node = s.name.node ∧ v.signature = some s := by
  have hsignature : item.role? = some .signature := (Item.annotated?_eq_some_iff.1 hname).2
  have hread := hp.read item (by simp) hsignature
  obtain ⟨s, hwaits, hs, hsname⟩ :=
    Item.waitingSignature_of_annotated before.reverse hname hread
  -- The declarations are split at the one that the definition became.
  have hdeclarations := hr.declarations
  rw [List.append_cons] at hdeclarations
  obtain ⟨others, hothers⟩ := Item.declarations_append_cons hrole
  rw [hothers, List.reverse_concat] at hdeclarations
  obtain ⟨earlier, declaration, later, hsplit, hlength, hreads⟩ :=
    exists_of_forall₂_append_cons hdeclarations
  obtain ⟨v, rfl, hv⟩ := Reader.value_of_declaration hnext hreads.1
  refine ⟨s, v, earlier, later, hs, hsplit, ?_, hv.trans hsname.symm, ?_⟩
  · rw [hlength, Item.length_declarations, List.countP_append, List.countP_singleton]
    simp [hsignature]
  · rw [← hwaits]
    exact hreads.2.2

theorem ofTokens_settles (h : ofTokens tokens = .ok m) : m.Settles (itemsOf tokens) := by
  rw [ofTokens_eq] at h
  unfold draftOf at h
  rcases hskip : skipMisplaced (itemsOf tokens) with ⟨items, misplaced⟩
  rcases hheader : takeHeader items with ⟨header, afterHeader, inHeader⟩
  rcases hdoc : takeDoc afterHeader with ⟨doc, body, inDoc⟩
  simp only [hskip, hheader, hdoc] at h
  split at h
  · next hempty =>
    cases h
    have hnone := Draft.pendingSignature_of_finish (Array.isEmpty_iff.1 hempty)
    obtain ⟨herrors, hfinish⟩ := Draft.finish_of_errors (Array.isEmpty_iff.1 hempty)
    have hstart := (Draft.errors_start _).1 (Draft.errors_of_foldl herrors)
    simp only [List.append_eq_nil_iff] at hstart
    obtain ⟨⟨rfl, rfl⟩, rfl⟩ := hstart
    have hreads := (Draft.reads_start header.kind _).foldl herrors
    have hpairs := (Draft.pairs_start _).foldl (Draft.reads_start header.kind _) herrors
    rw [List.nil_append] at hreads hpairs
    obtain ⟨rfl, -⟩ := skipMisplaced_cases hskip
    obtain ⟨rfl, -, -⟩ := takeHeader_cases hheader
    obtain ⟨rfl, -, -⟩ := takeDoc_cases hdoc
    rw [hfinish]
    constructor
    case met =>
      intro before item after name hitems hname
      have hrole := (Item.annotated?_eq_some_iff.1 hname).2
      have hbody : Item.behind .doc (Item.behind .header (itemsOf tokens)) =
          Item.behind .doc (Item.behind .header before) ++ item :: after := by
        rw [hitems, Item.behind_append_cons (by simp [hrole]),
          Item.behind_append_cons (by simp [hrole])]
      rw [hbody] at hreads hpairs hnone
      cases after with
      | nil =>
        -- The last item cannot be a signature: it would wait.
        have hread := hpairs.read item (by simp) hrole
        obtain ⟨s, hwaits, -⟩ := Item.waitingSignature_of_annotated
          (Item.behind .doc (Item.behind .header before)).reverse hname hread
        rw [hreads.pendingSignature, List.reverse_concat, hwaits] at hnone
        cases hnone
      | cons next rest =>
        have hnext : next.first.kind = .lowerName name :=
          (List.isChain_cons_cons.1 (List.isChain_append.1 hpairs.met).2.1).1 name hname
        refine ⟨next, rest, rfl, hnext, ?_⟩
        rcases Item.role_of_lowerName hnext with hnextRole | hnextRole
        · exact .inl hnextRole
        · obtain ⟨s, v, earlier, later, hs, hsplit, hlength, hv⟩ :=
            defines_of_reads hreads hpairs hname hnext hnextRole
          rw [Item.countP_behind (by decide), Item.countP_behind (by decide)] at hlength
          rw [hbody]
          exact .inr ⟨hnextRole, s, v, earlier, later, hs, hsplit, hlength, hv⟩
    case count =>
      have hcount := hpairs.count
      rw [hnone, Item.countP_behind (by decide), Item.countP_behind (by decide),
        Item.length_doubled_behind (by decide), Item.length_doubled_behind (by decide)] at hcount
      exact hcount
  · cases h

/-- **Every signature of a source that is accepted is followed by its name**, and all
    but the doubled ones are in definitions. -/
theorem ofSource_settles (h : ofSource source = .ok m) :
    ∃ tokens, Token.ofSource source = .ok tokens ∧ m.Settles (itemsOf tokens) := by
  obtain ⟨stream, last, htokens, -, -, hmodule, -⟩ := exists_ofTokens h
  exact ⟨_, htokens, ofTokens_settles hmodule⟩

/-- A definition behind two signatures, of which it has the second one. -/
def doublySigned : String := "module A exposing (..)\n\nx : Int\n\nx : String\n\nx = 1\n"

theorem ofSource_settles_doublySigned :
    ∃ m, ofSource doublySigned = .ok m ∧
      m.declarations.map (fun d => d.signature?.map fun s => s.annotation) = [some "String"] ∧
      ∃ tokens, Token.ofSource doublySigned = .ok tokens ∧ m.Settles (itemsOf tokens) := by
  have hsignatures : (ofSource doublySigned).toOption.map
      (fun m => m.declarations.map fun d => d.signature?.map fun s => s.annotation) =
        some [some "String"] := by decide +kernel
  cases hmodule : ofSource doublySigned with
  | error ds =>
    rw [hmodule] at hsignatures
    cases hsignatures
  | ok m =>
    rw [hmodule] at hsignatures
    exact ⟨m, rfl, Option.some.inj hsignatures, ofSource_settles hmodule⟩

/-- Of two signatures of one name the first one is accepted and lost: no definition
    stands behind it, and there are more signatures than definitions have. -/
theorem signature_lost :
    ∃ tokens m, Token.ofSource doublySigned = .ok tokens ∧ ofSource doublySigned = .ok m ∧
      (¬ ∀ before item after name, itemsOf tokens = before ++ item :: after →
        item.annotated? = some name →
          ∃ next rest, after = next :: rest ∧ m.Defines before item next) ∧
      (itemsOf tokens).countP (·.role? = some .signature) ≠
        m.declarations.countP (·.signature?.isSome) := by
  have hroles : (Token.ofSource doublySigned).toOption.map
      (fun tokens => (itemsOf tokens).map fun item => (item.role?, item.annotated?)) =
        some [(some .header, none), (some .signature, some "x"), (some .signature, some "x"),
          (some .declaration, none)] := by decide +kernel
  have hcounts : (Token.ofSource doublySigned).toOption.map
        (fun tokens => (itemsOf tokens).countP (·.role? = some .signature)) = some 2 ∧
      (ofSource doublySigned).toOption.map
        (fun m => m.declarations.countP (·.signature?.isSome)) = some 1 := by decide +kernel
  obtain ⟨hitems, hdeclarations⟩ := hcounts
  cases htokens : Token.ofSource doublySigned with
  | error e =>
    rw [htokens] at hitems
    cases hitems
  | ok tokens =>
    cases hmodule : ofSource doublySigned with
    | error ds =>
      rw [hmodule] at hdeclarations
      cases hdeclarations
    | ok m =>
      rw [htokens] at hroles hitems
      rw [hmodule] at hdeclarations
      refine ⟨tokens, m, rfl, rfl, ?_, ?_⟩
      · intro hdefined
        have hlist := Option.some.inj hroles
        obtain ⟨first, rest, hcut, -, hlist⟩ := List.map_eq_cons_iff.1 hlist
        obtain ⟨item, rest, rfl, hitem, hlist⟩ := List.map_eq_cons_iff.1 hlist
        obtain ⟨next, rest, rfl, hnext, -⟩ := List.map_eq_cons_iff.1 hlist
        obtain ⟨next', rest', hafter, hdefines⟩ :=
          hdefined [first] item (next :: rest) "x" hcut (Prod.mk.inj hitem).2
        -- What stands behind the first signature is a signature.
        obtain ⟨rfl, -⟩ := List.cons.inj hafter
        have hrole := hdefines.1
        rw [(Prod.mk.inj hnext).1] at hrole
        cases hrole
      · intro hsame
        have htwo := hsame.symm.trans (Option.some.inj hitems)
        cases htwo.symm.trans (Option.some.inj hdeclarations)

end Module

end ElmIntake
