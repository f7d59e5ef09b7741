import ElmIntake.Proofs.Syntax.Reports
import ElmIntake.Proofs.Syntax.Signatures

/-! # What a broken item changes

    Two runs over the same items, but for one: in the first run it draws no report,
    and in the second one there stands another item in its place, which begins alike
    and cannot be read. The second run has one report more, and otherwise the same.

    Behind the broken item the runs go on from different standings, and these have to
    fall together again without a report. There are two ways in which they differ.

    * A signature waits in the first run and does not in the second one. This makes
      no difference, because in the first run it is met: the next item bears its name
      (`Standing.Met`).
    * A header that cannot be read counts as the implicit one, which is no header of a
      port module. So if the broken item is such a header, then every port declaration
      is reported as being out of place, and this in place of whatever else is wrong
      with it (`Item.isDisturbed`).

    The reports of two runs over items of the same layout are the same, so in whole
    sources all other items may differ in places.

    Main statements: `Item.reportsOf_alike`, `Item.reportsOf_isolated`. -/

namespace ElmIntake

/-! ## Two runs over items of the same layout -/

/-- A report without its place. -/
def Report.label (r : Report) : Nat × String := (r.index, r.error.message)

theorem failure?_of_seen {α β : Type} {view : α → β} {x x' : Except SyntaxError α}
    (h : seen view x = seen view x') :
    (failure? x).map (·.message) = (failure? x').map (·.message) := by
  obtain ⟨e, e', rfl, rfl, hcause⟩ | ⟨a, a', rfl, rfl, -⟩ := cases_of_seen_eq h
  · exact congrArg (some ·.message) hcause
  · rfl

namespace Item

variable {kind : ModuleKind} {item item' : Item}

/-- How an item begins: the kinds of its first two tokens. -/
def beginning (item : Item) : TokenKind × Option TokenKind := (item.first.kind, item.second?)

theorem first_of_beginning (h : item.beginning = item'.beginning) :
    item.first.kind = item'.first.kind := (Prod.mk.inj h).1

theorem second?_of_beginning (h : item.beginning = item'.beginning) :
    item.second? = item'.second? := (Prod.mk.inj h).2

/-- What an item is taken for hangs on how it begins. -/
theorem taken_congr (h : item.beginning = item'.beginning) : item.taken = item'.taken := by
  unfold taken role?
  rw [first_of_beginning h, second?_of_beginning h]

theorem SameLayout.taken (h : item.SameLayout item') : item.taken = item'.taken :=
  taken_congr (Prod.ext h.first h.second?)

theorem SameLayout.fault? (h : item.SameLayout item') (kind : ModuleKind) :
    (item.fault? kind).map (·.message) = (item'.fault? kind).map (·.message) := by
  unfold Item.fault?
  rw [h.taken]
  split
  · exact failure?_of_seen (readDoc_alike h)
  · exact failure?_of_seen (Reader.import_alike.onTokens h.kinds)
  · exact failure?_of_seen (Reader.header_alike.onTokens h.kinds)
  · exact failure?_of_seen (Reader.signature_alike.onTokens h.kinds)
  · exact failure?_of_seen ((Reader.declaration_alike kind rfl rfl).onTokens h.kinds)

end Item

namespace Standing

/-- The signature that waits without its places. -/
def bearer (w : Nat × Signature) : Nat × String := (w.1, w.2.name.node)

/-- Do two standings differ in places only? -/
structure Alike (s s' : Standing) : Prop where
  pastImports : s.pastImports = s'.pastImports
  waiting : s.waiting.map bearer = s'.waiting.map bearer

variable {kind : ModuleKind} {s s' : Standing} {item item' : Item}

theorem Alike.kept (h : Alike s s') (past : Bool) (first : TokenKind) :
    Alike ⟨past, s.kept first⟩ ⟨past, s'.kept first⟩ := by
  refine ⟨rfl, ?_⟩
  unfold Standing.kept
  obtain ⟨hnone, hnone'⟩ | ⟨w, w', hw, hw', hbearer⟩ := cases_of_map_eq h.waiting
  · rw [hnone, hnone']
  · have hname : w.2.name.node = w'.2.name.node := (Prod.mk.inj hbearer).2
    simp only [hw, hw', Option.filter, hname]
    split
    · exact congrArg some hbearer
    · rfl

theorem Alike.unmet (h : Alike s s') (next? : Option TokenKind) :
    (s.unmet next?).map Report.label = (s'.unmet next?).map Report.label := by
  unfold Standing.unmet
  obtain ⟨hnone, hnone'⟩ | ⟨w, w', hw, hw', hbearer⟩ := cases_of_map_eq h.waiting
  · rw [hnone, hnone']
  · obtain ⟨hindex, hname⟩ := Prod.mk.inj hbearer
    rw [hw, hw']
    dsimp only
    rw [hname]
    split
    · rfl
    · simp [Report.label, SyntaxError.message, hindex]

theorem Alike.own? (h : Alike s s') (hitem : item.SameLayout item') (kind : ModuleKind) :
    (s.own? kind item).map (·.message) = (s'.own? kind item').map (·.message) := by
  unfold Standing.own?
  rw [hitem.taken, h.pastImports]
  split
  · rfl
  · split
    · rfl
    · exact hitem.fault? kind
  · exact hitem.fault? kind

theorem Alike.after (h : Alike s s') (hitem : item.SameLayout item') (k : Nat) :
    Alike (s.after k item) (s'.after k item') := by
  unfold Standing.after
  rw [hitem.taken, hitem.first]
  split
  · obtain ⟨e, e', he, he', -⟩ | ⟨sig, sig', hsig, hsig', hsame⟩ :=
      cases_of_seen_eq (Reader.signature_alike.onTokens hitem.kinds)
    · rw [he, he']
      exact h.kept true _
    · rw [hsig, hsig']
      have hname := Located.node_eq_of_unplaced (Signature.mk.inj hsame).1
      exact ⟨rfl, congrArg (fun name => some (k, name)) hname⟩
  · exact ⟨rfl, rfl⟩
  · rw [h.pastImports]
    exact h.kept _ _

theorem Alike.reports (h : Alike s s') (hitem : item.SameLayout item') (kind : ModuleKind)
    (k : Nat) :
    (s.reports kind k item).map Report.label = (s'.reports kind k item').map Report.label := by
  have hown := congrArg (fun own => own.toList.map (k, ·)) (h.own? hitem kind)
  unfold Standing.reports
  rw [List.map_append, List.map_append, hitem.first, h.unmet]
  simpa [Report.label, Option.toList_map, Function.comp_def] using hown

end Standing

namespace Item

variable {kind : ModuleKind} {items items' : List Item}

theorem reportsFrom_alike (h : List.Forall₂ SameLayout items items') {s s' : Standing}
    (hs : s.Alike s') (kind : ModuleKind) (k : Nat) :
    (reportsFrom kind s k items).map Report.label =
      (reportsFrom kind s' k items').map Report.label := by
  induction h generalizing s s' k with
  | nil => exact hs.unmet none
  | cons hitem _ ih =>
    rw [reportsFrom, reportsFrom, List.map_append, List.map_append, hs.reports hitem,
      ih (hs.after hitem k)]

theorem reportsPlaced_alike (h : List.Forall₂ SameLayout items items') (k : Nat) :
    (reportsPlaced k items).map Report.label = (reportsPlaced k items').map Report.label := by
  obtain ⟨hheader, hbehind, hcauses⟩ := takeHeader_alike h
  have hinHeader := congrArg (List.map fun cause => (k, SyntaxCause.message cause)) hcauses
  have hkind : (takeHeader items).1.kind = (takeHeader items').1.kind :=
    (ModuleHeader.mk.inj hheader).1
  unfold reportsPlaced
  dsimp only
  rw [List.map_append, List.map_append, h.length_eq, hbehind.length_eq, hkind,
    reportsFrom_alike hbehind ⟨rfl, rfl⟩]
  simpa [Report.label, SyntaxError.message, Function.comp_def] using hinHeader

/-- **Items of the same layout** draw the same reports. -/
theorem reportsOf_alike (h : List.Forall₂ SameLayout items items') :
    (reportsOf items).map Report.label = (reportsOf items').map Report.label := by
  obtain ⟨hplaced, hcauses⟩ := skipMisplaced_alike h
  have hmisplaced := congrArg (List.map fun cause => (0, SyntaxCause.message cause)) hcauses
  unfold reportsOf
  dsimp only
  rw [List.map_append, List.map_append, h.length_eq, hplaced.length_eq,
    reportsPlaced_alike hplaced]
  simpa [Report.label, SyntaxError.message, Function.comp_def] using hmisplaced

end Item

/-! ## The broken item and the items behind it -/

namespace Standing

variable {kind : ModuleKind} {s s' : Standing} {item item' : Item} {k : Nat} {e : SyntaxError}

/-- Nothing is reported of an item that draws no report. -/
theorem own?_eq_none (h : ∀ r ∈ s.reports kind k item, r.index ≠ k) : s.own? kind item = none := by
  cases hown : s.own? kind item with
  | none => rfl
  | some e =>
    have hmem : ⟨k, e⟩ ∈ s.reports kind k item := by
      unfold reports
      rw [hown]
      simp
    exact absurd rfl (h _ hmem)

theorem fault?_eq_none (h : s.own? kind item = none) : item.fault? kind = none := by
  unfold own? at h
  split at h
  · cases h
  · split at h
    · cases h
    · exact h
  · exact h

/-- Where an item is in place, one that is taken for the same is in place, too. -/
theorem own?_of_fault? (hnone : s.own? kind item = none) (htaken : item.taken = item'.taken)
    (h : item'.fault? kind = some e) : s.own? kind item' = some e := by
  unfold own? at hnone ⊢
  rw [← htaken]
  split
  · next hheader => simp [hheader] at hnone
  · next himport =>
    by_cases hpast : s.pastImports = true
    · simp [himport, hpast] at hnone
    · rw [if_neg hpast]
      exact h
  · exact h

/-- **A signature that is met in one run**, and by the same item in the other one:
    there nothing waits, or one of the same name. -/
structure Met (i : Nat) (s s' : Standing) : Prop where
  pastImports : s.pastImports = s'.pastImports
  waiting : ∃ sig, s.waiting = some (i, sig) ∧
    ∀ w, s'.waiting = some w → w.2.name.node = sig.name.node

variable {i : Nat}

theorem Met.unmet {next? : Option TokenKind} (h : Met i s s')
    (hclean : ∀ r ∈ s.unmet next?, r.index ≠ i) :
    s.unmet next? = [] ∧ s'.unmet next? = [] ∧
      ∃ sig, s.waiting = some (i, sig) ∧ next? = some (.lowerName sig.name.node) := by
  obtain ⟨sig, hwaits, hname⟩ := h.waiting
  unfold Standing.unmet at hclean ⊢
  rw [hwaits] at hclean ⊢
  dsimp only at hclean ⊢
  by_cases hnext : next? = some (.lowerName sig.name.node)
  · refine ⟨if_pos hnext, ?_, sig, rfl, hnext⟩
    cases hother : s'.waiting with
    | none => rfl
    | some w => exact if_pos (by rw [hname w hother]; exact hnext)
  · rw [if_neg hnext] at hclean
    exact absurd rfl (hclean _ List.mem_cons_self)

theorem Met.kept {first : TokenKind} (h : Met i s s')
    (hclean : ∀ r ∈ s.unmet (some first), r.index ≠ i) (past : Bool) :
    Met i ⟨past, s.kept first⟩ ⟨past, s'.kept first⟩ := by
  obtain ⟨-, -, sig, hwaits, hfirst⟩ := h.unmet hclean
  obtain ⟨sig', hwaits', hname⟩ := h.waiting
  obtain rfl : sig = sig' := by
    rw [hwaits] at hwaits'
    exact (Prod.mk.inj (Option.some.inj hwaits')).2
  refine ⟨rfl, sig, ?_, ?_⟩
  · unfold Standing.kept
    rw [hwaits]
    simp [Option.filter, Option.some.inj hfirst]
  · intro w hw
    exact hname w (Option.filter_eq_some_iff.1 hw).1

end Standing

namespace Item

variable {kind : ModuleKind} {s s' : Standing} {item item' : Item} {before after items : List Item}
variable {k i : Nat} {e : SyntaxError}

/-- A signature that is met makes no difference. The induction is on the items; the
    runs fall together as soon as a signature or a declaration can be read. -/
theorem reportsFrom_of_met (h : s.Met i s')
    (hclean : ∀ r ∈ reportsFrom kind s k items, r.index ≠ i) :
    reportsFrom kind s k items = reportsFrom kind s' k items := by
  induction items generalizing s s' k with
  | nil =>
    obtain ⟨hnil, hnil', -⟩ := h.unmet hclean
    rw [reportsFrom, reportsFrom, hnil, hnil']
  | cons item items ih =>
    rw [reportsFrom] at hclean
    have hunmet : ∀ r ∈ s.unmet (some item.first.kind), r.index ≠ i := by
      intro r hr
      exact hclean r (List.mem_append_left _ (List.mem_append_left _ hr))
    have hrest : ∀ r ∈ reportsFrom kind (s.after k item) (k + 1) items, r.index ≠ i := by
      intro r hr
      exact hclean r (List.mem_append_right _ hr)
    obtain ⟨hnil, hnil', -⟩ := h.unmet hunmet
    have hown : s.own? kind item = s'.own? kind item := by
      unfold Standing.own?
      rw [h.pastImports]
    -- A signature of the same name that cannot be read leaves both waiting as they are.
    have hafter : s.after k item = s'.after k item ∨ (s.after k item).Met i (s'.after k item) := by
      unfold Standing.after
      split
      · cases Reader.signature.onTokens item.tokens with
        | ok sig => exact .inl rfl
        | error e => exact .inr (h.kept hunmet true)
      · exact .inl rfl
      · rw [h.pastImports]
        exact .inr (h.kept hunmet _)
    rw [reportsFrom, reportsFrom, Standing.reports, Standing.reports, hnil, hnil', hown]
    congr 1
    rcases hafter with hsame | hmet
    · rw [hsame]
    · exact ih hmet hrest

/-- What a broken item leaves behind makes no difference for the next ones. -/
theorem reportsFrom_behind (hbegin : item.beginning = item'.beginning)
    (hnone : s.own? kind item = none) (h : item'.fault? kind = some e)
    (hclean : ∀ r ∈ reportsFrom kind (s.after k item) (k + 1) items, r.index ≠ k) :
    reportsFrom kind (s.after k item) (k + 1) items =
      reportsFrom kind (s.after k item') (k + 1) items := by
  have hread := Standing.fault?_eq_none hnone
  have htaken := taken_congr hbegin
  unfold Standing.after at hclean ⊢
  rw [← htaken, ← first_of_beginning hbegin]
  unfold Item.fault? at hread h
  rw [← htaken] at h
  cases hrole : item.taken with
  | signature =>
    simp only [hrole] at hread h hclean ⊢
    obtain ⟨sig, hsig⟩ := exists_of_failure? hread
    rw [hsig] at hclean ⊢
    rw [error_of_failure? h]
    apply reportsFrom_of_met _ hclean
    -- In the first run this signature waits. In the second one there waits what waited
    -- before, if it bears the same name, and otherwise nothing.
    have hname : item.first.kind = .lowerName sig.name.node :=
      Reader.signature_moves_first.start.onTokens hsig
    refine ⟨rfl, sig, rfl, ?_⟩
    intro w hw
    have hkept := (Option.filter_eq_some_iff.1 hw).2
    rw [hname] at hkept
    exact (TokenKind.lowerName.inj (by simpa using hkept)).symm
  | _ => rfl

/-- **A broken item behind the header adds one report**, and changes no other. The
    induction is on the items before it. -/
theorem reportsFrom_replace (hbegin : item.beginning = item'.beginning)
    (h : item'.fault? kind = some e)
    (hclean : ∀ r ∈ reportsFrom kind s k (before ++ item :: after), r.index ≠ k + before.length) :
    item.taken ≠ .header ∧ ∃ earlier later,
      reportsFrom kind s k (before ++ item :: after) = earlier ++ later ∧
        reportsFrom kind s k (before ++ item' :: after) =
          earlier ++ ⟨k + before.length, e⟩ :: later := by
  induction before generalizing s k with
  | nil =>
    rw [List.nil_append, reportsFrom] at hclean
    have hnone : s.own? kind item = none := by
      apply Standing.own?_eq_none
      intro r hr
      exact hclean r (List.mem_append_left _ hr)
    -- Nothing is reported of the item that is replaced, so the rest stands as before.
    have hbehind : reportsFrom kind (s.after k item) (k + 1) after =
        reportsFrom kind (s.after k item') (k + 1) after := by
      apply reportsFrom_behind hbegin hnone h
      intro r hr
      exact hclean r (List.mem_append_right _ hr)
    have hown := Standing.own?_of_fault? hnone (taken_congr hbegin) h
    refine ⟨?_, s.unmet (some item.first.kind), reportsFrom kind (s.after k item) (k + 1) after,
      ?_, ?_⟩
    · intro hheader
      simp [Standing.own?, hheader] at hnone
    · simp [reportsFrom, Standing.reports, hnone]
    · simp [reportsFrom, Standing.reports, hown, first_of_beginning hbegin, hbehind]
  | cons first before ih =>
    have hlength : k + (first :: before).length = k + 1 + before.length := by
      rw [List.length_cons]
      omega
    rw [List.cons_append, reportsFrom, hlength] at hclean
    obtain ⟨hother, earlier, later, hrun, hrun'⟩ :=
      ih fun r hr => hclean r (List.mem_append_right _ hr)
    refine ⟨hother, s.reports kind k first ++ earlier, later, ?_, ?_⟩
    · rw [List.cons_append, reportsFrom, hrun, List.append_assoc]
    · rw [List.cons_append, reportsFrom, hrun', hlength, List.append_assoc]

/-! ## The broken item and the header -/

/-- Whether items begin with a header hangs on the kinds of two tokens. -/
theorem startsWithHeader_of_take {items items' : List Item}
    (h : (kinds (allTokens items)).take 2 = (kinds (allTokens items')).take 2) :
    startsWithHeader items = startsWithHeader items' := by
  unfold startsWithHeader
  unfold kinds at h
  generalize (allTokens items).map Token.kind = first at h ⊢
  generalize (allTokens items').map Token.kind = second at h ⊢
  rcases first with - | ⟨a, - | ⟨b, first⟩⟩ <;> rcases second with - | ⟨a', - | ⟨b', second⟩⟩ <;>
    simp_all
  obtain ⟨rfl, rfl⟩ := h
  split <;> split <;> simp_all

theorem startsWithHeader_replace (before after : List Item)
    (hbegin : item.beginning = item'.beginning) :
    startsWithHeader (before ++ item :: after) = startsWithHeader (before ++ item' :: after) := by
  apply startsWithHeader_of_take
  have hkinds (i : Item) : kinds (allTokens (before ++ i :: after)) =
      kinds (allTokens before) ++ i.first.kind :: (kinds i.rest ++ kinds (allTokens after)) := by
    simp [kinds, allTokens, tokens]
  have hrest (i : Item) : i.second? = (kinds i.rest).head? := List.head?_map.symm
  have hsecond := second?_of_beginning hbegin
  rw [hrest, hrest] at hsecond
  rw [hkinds, hkinds, first_of_beginning hbegin]
  -- Two tokens from the front are those before the item, or its first two.
  rcases kinds (allTokens before) with - | ⟨a, - | ⟨b, front⟩⟩
  · cases hitem : kinds item.rest <;> cases hitem' : kinds item'.rest <;> simp_all
  · simp
  · simp

/-- The kind of the module whose header stands in front, if one is there. -/
theorem kind_takeHeader_cons {first : Item} {items' : List Item}
    (h : startsWithHeader (first :: items) = startsWithHeader (first :: items')) :
    (takeHeader (first :: items)).1.kind = (takeHeader (first :: items')).1.kind := by
  unfold takeHeader
  rw [h]
  cases startsWithHeader (first :: items') with
  | true =>
    dsimp only
    cases Reader.header.onTokens first.tokens <;> rfl
  | false => rfl

theorem kind_takeHeader_of_not_header (h : startsWithHeader items = false) :
    (takeHeader items).1.kind = .normal := by
  unfold takeHeader
  rw [h]
  rfl

theorem kind_takeHeader_of_error {first : Item}
    (hread : Reader.header.onTokens first.tokens = .error e) :
    (takeHeader (first :: items)).1.kind = .normal := by
  unfold takeHeader
  cases startsWithHeader (first :: items) with
  | true =>
    dsimp only
    rw [hread]
    rfl
  | false => rfl

/-- A header that draws no report can be read. -/
theorem exists_header_of_clean (hstarts : startsWithHeader (item :: items) = true)
    (hclean : ∀ r ∈ reportsPlaced k (item :: items), r.index ≠ k) :
    ∃ m, Reader.header.onTokens item.tokens = .ok m := by
  rw [reportsPlaced_of_header hstarts] at hclean
  cases hread : Reader.header.onTokens item.tokens with
  | ok m => exact ⟨m, rfl⟩
  | error e =>
    rw [hread] at hclean
    exact absurd rfl (hclean ⟨k, e⟩ (by simp [failure?]))

/-- **A broken item adds one report.** If it is the header, then the items behind it
    are read as those of a module with no header. -/
theorem reportsPlaced_replace (hbegin : item.beginning = item'.beginning)
    (h : item'.fault? (takeHeader (before ++ item' :: after)).1.kind = some e)
    (hclean : ∀ r ∈ reportsPlaced k (before ++ item :: after), r.index ≠ k + before.length) :
    ∃ earlier later later',
      reportsPlaced k (before ++ item :: after) = earlier ++ later ∧
        reportsPlaced k (before ++ item' :: after) =
          earlier ++ ⟨k + before.length, e⟩ :: later' ∧
        (item.taken ≠ .header ∧ later = later' ∨
          item.taken = .header ∧ earlier = [] ∧
            later = reportsFrom (takeHeader (before ++ item :: after)).1.kind .start
              (k + before.length + 1) after ∧
            later' = reportsFrom .normal .start (k + before.length + 1) after) := by
  have hstarts := startsWithHeader_replace before after hbegin
  cases hheader : startsWithHeader (before ++ item' :: after) with
  | false =>
    rw [hheader] at hstarts
    rw [reportsPlaced_of_not_header hstarts] at hclean ⊢
    rw [kind_takeHeader_of_not_header hheader] at h
    rw [reportsPlaced_of_not_header hheader]
    obtain ⟨hother, earlier, later, hrun, hrun'⟩ := reportsFrom_replace hbegin h hclean
    exact ⟨earlier, later, later, hrun, hrun', .inl ⟨hother, rfl⟩⟩
  | true =>
    rw [hheader] at hstarts
    cases before with
    | cons first before =>
      have hlength : k + (first :: before).length = k + 1 + before.length := by
        rw [List.length_cons]
        omega
      simp only [List.cons_append] at hstarts hheader h hclean ⊢
      have hkind : (takeHeader (first :: (before ++ item :: after))).1.kind =
          (takeHeader (first :: (before ++ item' :: after))).1.kind :=
        kind_takeHeader_cons (hstarts.trans hheader.symm)
      rw [reportsPlaced_of_header hstarts, hlength] at hclean
      rw [reportsPlaced_of_header hstarts, reportsPlaced_of_header hheader, hlength, hkind]
      rw [hkind] at hclean
      generalize (failure? (Reader.header.onTokens first.tokens)).toList.map
        (fun e => (⟨k, e⟩ : Report)) = inHeader at hclean ⊢
      obtain ⟨hother, earlier, later, hrun, hrun'⟩ :=
        reportsFrom_replace hbegin h fun r hr => hclean r (List.mem_append_right _ hr)
      refine ⟨inHeader ++ earlier, later, later, ?_, ?_, .inl ⟨hother, rfl⟩⟩
      · rw [hrun, List.append_assoc]
      · rw [hrun', List.append_assoc]
    | nil =>
      simp only [List.nil_append, List.length_nil, Nat.add_zero] at hstarts hheader h hclean ⊢
      -- The header is read in the first run, and so is taken for one in both.
      obtain ⟨m, hm⟩ := exists_header_of_clean hstarts hclean
      have htaken : item.taken = .header := by
        unfold taken
        rw [role_of_header hstarts hm]
        rfl
      have hfails : failure? (Reader.header.onTokens item'.tokens) = some e := by
        unfold fault? at h
        rw [← taken_congr hbegin, htaken] at h
        exact h
      refine ⟨[], reportsFrom (takeHeader (item :: after)).1.kind .start (k + 1) after,
        reportsFrom .normal .start (k + 1) after, ?_, ?_, .inr ⟨htaken, rfl, rfl, rfl⟩⟩
      · rw [reportsPlaced_of_header hstarts, hm]
        rfl
      · rw [reportsPlaced_of_header hheader, hfails,
          kind_takeHeader_of_error (error_of_failure? hfails)]
        rfl

/-- The kind of the module that some items are read as. -/
def kindOf (items : List Item) : ModuleKind := (takeHeader (skipMisplaced items).1).1.kind

theorem kindOf_of_placed (h : ∀ item ∈ items.head?, item.first.inFirstColumn = true) :
    kindOf items = (takeHeader items).1.kind := by
  unfold kindOf
  rw [skipMisplaced_of_placed h]

theorem kindOf_of_misplaced (h : item.first.inFirstColumn = false) :
    kindOf (item :: items) = (takeHeader items).1.kind := by
  unfold kindOf
  rw [skipMisplaced_of_misplaced h]

theorem reportsOf_replace (hbegin : item.beginning = item'.beginning)
    (hcolumn : item.first.inFirstColumn = item'.first.inFirstColumn)
    (h : item'.fault? (kindOf (before ++ item' :: after)) = some e)
    (hclean : ∀ r ∈ reportsOf (before ++ item :: after), r.index ≠ before.length) :
    ∃ earlier later later',
      reportsOf (before ++ item :: after) = earlier ++ later ∧
        reportsOf (before ++ item' :: after) = earlier ++ ⟨before.length, e⟩ :: later' ∧
        (item.taken ≠ .header ∧ later = later' ∨
          item.taken = .header ∧ (∀ r ∈ earlier, r.index < before.length) ∧
            later =
              reportsFrom (kindOf (before ++ item :: after)) .start (before.length + 1) after ∧
            later' = reportsFrom .normal .start (before.length + 1) after) := by
  have hzero : 0 + before.length = before.length := Nat.zero_add _
  by_cases hplaced : ∀ i ∈ (before ++ item :: after).head?, i.first.inFirstColumn = true
  · have hplaced' : ∀ i ∈ (before ++ item' :: after).head?, i.first.inFirstColumn = true := by
      cases before with
      | nil => simpa [← hcolumn] using hplaced
      | cons first before => simpa using hplaced
    rw [reportsOf_of_placed hplaced, ← hzero] at hclean
    rw [kindOf_of_placed hplaced'] at h
    rw [reportsOf_of_placed hplaced, reportsOf_of_placed hplaced', kindOf_of_placed hplaced]
    obtain ⟨earlier, later, later', hrun, hrun', hlater⟩ :=
      reportsPlaced_replace hbegin h hclean
    rw [hzero] at hrun' hlater
    refine ⟨earlier, later, later', hrun, hrun', ?_⟩
    rcases hlater with hsame | ⟨hheader, rfl, hlater⟩
    · exact .inl hsame
    · exact .inr ⟨hheader, by simp, hlater⟩
  · cases before with
    | nil =>
      -- The item itself would be misplaced, and reported.
      have hmisplaced : item.first.inFirstColumn = false := by simpa using hplaced
      rw [List.nil_append, reportsOf_of_misplaced hmisplaced] at hclean
      exact absurd rfl (hclean _ List.mem_cons_self)
    | cons first before =>
      have hmisplaced : first.first.inFirstColumn = false := by simpa using hplaced
      have hlength : (first :: before).length = 1 + before.length := by
        rw [List.length_cons]
        omega
      rw [List.cons_append, reportsOf_of_misplaced hmisplaced, hlength] at hclean
      rw [List.cons_append, kindOf_of_misplaced hmisplaced] at h
      rw [List.cons_append, List.cons_append, reportsOf_of_misplaced hmisplaced,
        reportsOf_of_misplaced hmisplaced, kindOf_of_misplaced hmisplaced, hlength]
      obtain ⟨earlier, later, later', hrun, hrun', hlater⟩ :=
        reportsPlaced_replace hbegin h fun r hr => hclean r (List.mem_cons_of_mem _ hr)
      refine ⟨⟨0, ⟨.notInFirstColumn, first.first.span⟩⟩ :: earlier, later, later', ?_, ?_, ?_⟩
      · rw [hrun]
        rfl
      · rw [hrun']
        rfl
      · rcases hlater with hsame | ⟨hheader, rfl, hlater⟩
        · exact .inl hsame
        · refine .inr ⟨hheader, ?_, hlater⟩
          simp only [List.mem_singleton, forall_eq]
          omega

end Item

/-! ## Port declarations and the kind of the module -/

namespace Reader

/-- Only ports hang on the kind of the module, and only on whether it may have any. -/
theorem declaration_of_kind {kind kind' : ModuleKind} {t : Token} {rest : List Token}
    (h : t.kind ≠ .keyword .portWord ∨ (kind = .port ↔ kind' = .port)) :
    (declaration kind none none).onTokens (t :: rest) =
      (declaration kind' none none).onTokens (t :: rest) := by
  obtain ⟨first, span⟩ := t
  cases first with
  | keyword word =>
    cases word with
    | portWord =>
      have hkind : kind = .port ↔ kind' = .port := h.resolve_left (by simp)
      cases kind <;> cases kind' <;> simp_all <;> rfl
    | _ => rfl
  | opening bracket => cases bracket <;> rfl
  | _ => rfl

end Reader

namespace Item

/-- Is the item a port declaration? -/
def isPort (item : Item) : Bool :=
  item.first.kind = .keyword .portWord ∧ item.taken = .declaration

variable {kind kind' : ModuleKind} {s : Standing} {item : Item} {all items : List Item} {k : Nat}

theorem fault?_of_kind (h : item.isPort = false ∨ (kind = .port ↔ kind' = .port)) :
    item.fault? kind = item.fault? kind' := by
  unfold fault?
  cases htaken : item.taken with
  | declaration =>
    have hread : (Reader.declaration kind none none).onTokens item.tokens =
        (Reader.declaration kind' none none).onTokens item.tokens := by
      apply Reader.declaration_of_kind
      refine h.imp_left fun hport hfirst => ?_
      simp [isPort, hfirst, htaken] at hport
    exact congrArg failure? hread
  | _ => rfl

theorem fault?_of_port (h : item.isPort = true) (hkind : kind ≠ .port) :
    item.fault? kind = some ⟨.portOutsidePortModule, item.first.span⟩ := by
  obtain ⟨hfirst, htaken⟩ := of_decide_eq_true h
  obtain ⟨⟨first, span⟩, rest⟩ := item
  cases hfirst
  unfold fault?
  rw [htaken]
  cases kind with
  | port => exact absurd rfl hkind
  | _ => rfl

theorem own?_of_kind (h : item.isPort = false ∨ (kind = .port ↔ kind' = .port)) :
    s.own? kind item = s.own? kind' item := by
  unfold Standing.own?
  rw [fault?_of_kind h]

theorem own?_of_port (h : item.isPort = true) (hkind : kind ≠ .port) :
    s.own? kind item = some ⟨.portOutsidePortModule, item.first.span⟩ := by
  have htaken : item.taken = .declaration := (of_decide_eq_true h).2
  unfold Standing.own?
  rw [htaken]
  exact fault?_of_port h hkind

/-- **What the kind of the module changes** are the reports of ports: those that are
    left without them are the same. -/
theorem filter_reportsFrom_of_kind (keep : Nat → Bool)
    (h : (kind = .port ↔ kind' = .port) ∨
      ∀ j p, k ≤ j → all[j]? = some p → p.isPort = true → keep j = false)
    (hitems : all.drop k = items) :
    (reportsFrom kind s k items).filter (keep ·.index) =
      (reportsFrom kind' s k items).filter (keep ·.index) := by
  induction items generalizing s k with
  | nil => rfl
  | cons item items ih =>
    obtain ⟨hitem, hrest⟩ := getElem?_of_drop hitems
    have hreports : (s.reports kind k item).filter (keep ·.index) =
        (s.reports kind' k item).filter (keep ·.index) := by
      -- Only a port is reported for the kind of its module, and that report is left out.
      by_cases hsame : item.isPort = false ∨ (kind = .port ↔ kind' = .port)
      · unfold Standing.reports
        rw [own?_of_kind hsame]
      · obtain ⟨hport, hkind⟩ := not_or.1 hsame
        have hkeep := h.resolve_left hkind k item (Nat.le_refl k) hitem (by simpa using hport)
        have hnone (own : Option SyntaxError) :
            (own.toList.map fun e => (⟨k, e⟩ : Report)).filter (keep ·.index) = [] := by
          cases own <;> simp [hkeep]
        unfold Standing.reports
        rw [List.filter_append, List.filter_append, hnone, hnone]
    have hbehind := h.imp_right fun hkeep j p hj => hkeep j p (Nat.le_of_succ_le hj)
    rw [reportsFrom, reportsFrom, List.filter_append, List.filter_append, hreports,
      ih hbehind hrest]

/-- A signature that waits is no port. -/
theorem filter_unmet_of_port {j : Nat} {p : Item} (hs : s.IsOf all) (hj : all[j]? = some p)
    (hp : p.isPort = true) (next? : Option TokenKind) :
    (s.unmet next?).filter (·.index = j) = [] := by
  have htaken : p.taken = .declaration := (of_decide_eq_true hp).2
  unfold Standing.unmet
  split
  · rfl
  · next k sig hwaits =>
    split
    · rfl
    · obtain ⟨item, hitem, hsignature, -⟩ := hs k sig hwaits
      have hne : k ≠ j := by
        rintro rfl
        rw [hj] at hitem
        cases hitem
        rw [htaken] at hsignature
        cases hsignature
      simpa using hne

/-- **A port in a module without ports** is reported once, as being out of place. -/
theorem filter_reportsFrom_of_port {j : Nat} {p : Item} (hkind : kind ≠ .port) (hs : s.IsOf all)
    (hitems : all.drop k = items) (hj : all[j]? = some p) (hp : p.isPort = true) :
    (reportsFrom kind s k items).filter (·.index = j) =
      if k ≤ j then [⟨j, ⟨.portOutsidePortModule, p.first.span⟩⟩] else [] := by
  induction items generalizing s k with
  | nil =>
    have hend : all.length ≤ k := List.drop_eq_nil_iff.1 hitems
    have hlt : j < all.length := (List.getElem?_eq_some_iff.1 hj).1
    rw [reportsFrom, filter_unmet_of_port hs hj hp, if_neg (by omega)]
  | cons item items ih =>
    obtain ⟨hitem, hrest⟩ := getElem?_of_drop hitems
    rw [reportsFrom, List.filter_append, Standing.reports, List.filter_append,
      filter_unmet_of_port hs hj hp, ih (hs.after hitem) hrest]
    rcases Nat.lt_trichotomy k j with hlt | rfl | hgt
    · rw [if_pos (by omega), if_pos (by omega)]
      simp [Nat.ne_of_lt hlt]
    · rw [hj] at hitem
      cases hitem
      rw [if_neg (by omega), if_pos (Nat.le_refl _), own?_of_port hp hkind]
      simp
    · rw [if_neg (by omega), if_neg (by omega)]
      simp [Nat.ne_of_gt hgt]

/-! ## Both runs together -/

/-- Does the item with the number `j` depend on the one with the number `i`, as a port
    declaration does on the header of a port module? -/
def isDisturbed (items : List Item) (i j : Nat) : Bool :=
  kindOf items = .port ∧ (items[i]?).any (·.taken = .header) ∧ i < j ∧ (items[j]?).any isPort

variable {item' : Item} {before after : List Item} {e : SyntaxError} {i j : Nat}

theorem isDisturbed_iff :
    isDisturbed items i j = true ↔
      kindOf items = .port ∧ (∃ header, items[i]? = some header ∧ header.taken = .header) ∧
        i < j ∧ ∃ p, items[j]? = some p ∧ p.isPort = true := by
  simp [isDisturbed, Option.any_eq_true]

/-- Behind a header that is read in one run only, what is reported of items that are
    not disturbed is the same. -/
theorem filter_behind_header {header : Item} (hat : items[i]? = some header)
    (hheader : header.taken = .header) (hdrop : items.drop (i + 1) = after) :
    (reportsFrom (kindOf items) .start (i + 1) after).filter (!isDisturbed items i ·.index) =
      (reportsFrom .normal .start (i + 1) after).filter (!isDisturbed items i ·.index) := by
  refine filter_reportsFrom_of_kind (!isDisturbed items i ·) ?_ hdrop
  by_cases hport : kindOf items = .port
  · right
    intro j p hj hp hisPort
    have hdisturbed : isDisturbed items i j = true :=
      isDisturbed_iff.2 ⟨hport, ⟨header, hat, hheader⟩, hj, p, hp, hisPort⟩
    rw [hdisturbed]
    rfl
  · left
    simp [hport]

/-- A disturbed item has a single report in the run in which the header is broken. -/
theorem filter_of_isDisturbed {earlier : List Report} (hj : isDisturbed items i j = true)
    (hearlier : ∀ r ∈ earlier, r.index < i) (hdrop : items.drop (i + 1) = after) :
    ∃ span, (earlier ++ ⟨i, e⟩ :: reportsFrom .normal .start (i + 1) after).filter (·.index = j) =
      [⟨j, ⟨.portOutsidePortModule, span⟩⟩] := by
  obtain ⟨-, -, hlt, p, hp, hisPort⟩ := isDisturbed_iff.1 hj
  have hports := filter_reportsFrom_of_port (by simp : ModuleKind.normal ≠ .port)
    (Standing.isOf_start _) hdrop hp hisPort
  rw [if_pos (Nat.succ_le_of_lt hlt)] at hports
  have hfront : earlier.filter (·.index = j) = [] := by
    rw [List.filter_eq_nil_iff]
    intro r hr
    have hbefore := hearlier r hr
    simp only [decide_eq_true_eq]
    omega
  have hself : ¬ i = j := by omega
  refine ⟨p.first.span, ?_⟩
  rw [List.filter_append, hfront, List.nil_append, List.filter_cons_of_neg (by simpa using hself),
    hports]

/-- **Isolation, for items.** All reports but those of disturbed items stay as they
    are, and that of the broken item comes among them. -/
theorem reportsOf_isolated (hbegin : item.beginning = item'.beginning)
    (hcolumn : item.first.inFirstColumn = item'.first.inFirstColumn)
    (h : item'.fault? (kindOf (before ++ item' :: after)) = some e)
    (hclean : ∀ r ∈ reportsOf (before ++ item :: after), r.index ≠ before.length) :
    let disturbed := isDisturbed (before ++ item :: after) before.length
    (∃ earlier later,
      (reportsOf (before ++ item :: after)).filter (!disturbed ·.index) = earlier ++ later ∧
        (reportsOf (before ++ item' :: after)).filter (!disturbed ·.index) =
          earlier ++ ⟨before.length, e⟩ :: later) ∧
      ∀ j, disturbed j = true → ∃ span,
        (reportsOf (before ++ item' :: after)).filter (·.index = j) =
          [⟨j, ⟨.portOutsidePortModule, span⟩⟩] := by
  intro disturbed
  have hself : disturbed before.length = false := by simp [disturbed, isDisturbed]
  have hat : (before ++ item :: after)[before.length]? = some item := by simp
  have hdrop : (before ++ item :: after).drop (before.length + 1) = after := by
    rw [← List.tail_drop, List.drop_left]
    rfl
  obtain ⟨earlier, later, later', hrun, hrun', hlater⟩ :=
    reportsOf_replace hbegin hcolumn h hclean
  rw [hrun, hrun']
  -- The broken item itself is not among those that are left out.
  have hfilter (rest : List Report) :
      (earlier ++ ⟨before.length, e⟩ :: rest).filter (!disturbed ·.index) =
        earlier.filter (!disturbed ·.index) ++
          ⟨before.length, e⟩ :: rest.filter (!disturbed ·.index) := by
    rw [List.filter_append, List.filter_cons_of_pos (by simp [hself])]
  refine ⟨⟨earlier.filter (!disturbed ·.index), later.filter (!disturbed ·.index),
    List.filter_append .., ?_⟩, ?_⟩
  · rw [hfilter]
    rcases hlater with ⟨-, rfl⟩ | ⟨hheader, -, rfl, rfl⟩
    · rfl
    · rw [filter_behind_header hat hheader hdrop]
  · intro j hj
    rcases hlater with ⟨hother, -⟩ | ⟨-, hearlier, -, rfl⟩
    · -- Only a header disturbs other items.
      obtain ⟨-, ⟨header, hheader, htaken⟩, -⟩ := isDisturbed_iff.1 hj
      rw [hat] at hheader
      cases hheader
      exact absurd htaken hother
    · exact filter_of_isDisturbed hj hearlier hdrop

end Item

end ElmIntake
