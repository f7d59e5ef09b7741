import ElmIntake.Proofs.Syntax.Reports
import ElmIntake.Proofs.Syntax.Spans
import Mathlib.Data.List.Nodup
import Mathlib.Data.List.Perm.Subperm

/-! # What is said about a source that fails

    A source that is not accepted gives all that was reported of it, and whatever is
    reported makes it fail. If it cannot be cut into tokens, this is a single report;
    otherwise each report is of one item and points into it, with the line and column
    where the part to blame starts.

    No item is reported twice. A report is of the item that is read, and of nothing else
    then, or of a signature that waits, which was read without a fault when its turn
    came. So the numbers of the items reported from some item on are those behind it, and
    besides them at most that of the signature that waits (`Item.index_reportsFrom`).

    Main statement: `Module.ofSource_diagnosed`. -/

namespace ElmIntake

/-! ## No item is reported twice -/

section

variable {kind : ModuleKind} {s : Standing} {items : List Item} {item : Item} {k : Nat}

namespace Standing

/-- The number of the item that waits, if there is one. -/
def waitingIndex? (s : Standing) : Option Nat := s.waiting.map (·.1)

theorem index_unmet (s : Standing) (next? : Option TokenKind) :
    ∀ r ∈ s.unmet next?, s.waitingIndex? = some r.index := by
  intro r hr
  unfold unmet at hr
  split at hr
  · cases hr
  · next k sig hwaits =>
    split at hr
    · cases hr
    · rw [List.mem_singleton.1 hr, waitingIndex?, hwaits]
      rfl

/-- There is at most one signature that waits. -/
theorem nodup_index_unmet (s : Standing) (next? : Option TokenKind) :
    ((s.unmet next?).map (·.index)).Nodup := by
  unfold unmet
  split
  · exact List.nodup_nil
  · split
    · exact List.nodup_nil
    · exact List.nodup_singleton _

/-- A signature that is reported waits no longer. -/
theorem kept_of_unmet_ne_nil {first : TokenKind} (h : s.unmet (some first) ≠ []) :
    s.kept first = none := by
  unfold unmet at h
  split at h
  · exact absurd rfl h
  · next k sig hwaits =>
    split at h
    · exact absurd rfl h
    · next hfirst =>
      have hother : ¬ first = .lowerName sig.name.node :=
        fun heq => hfirst (congrArg some heq)
      simp [kept, hwaits, Option.filter, hother]

/-- Behind an item the signature that waits is its own, if nothing is wrong with it, or
    the one that waited before, if this one was not reported. -/
theorem waitingIndex?_after (kind : ModuleKind) {j : Nat}
    (h : (s.after k item).waitingIndex? = some j) :
    j = k ∧ s.own? kind item = none ∨
      s.waitingIndex? = some j ∧ s.unmet (some item.first.kind) = [] := by
  -- A signature that goes on waiting has not been reported.
  have hkept {past : Bool} (h : waitingIndex? ⟨past, s.kept item.first.kind⟩ = some j) :
      s.waitingIndex? = some j ∧ s.unmet (some item.first.kind) = [] := by
    obtain ⟨w, hw, rfl⟩ := Option.map_eq_some_iff.1 h
    change s.kept item.first.kind = some w at hw
    have hwaiting : s.waiting = some w := (Option.filter_eq_some_iff.1 hw).1
    refine ⟨by rw [waitingIndex?, hwaiting]; rfl, ?_⟩
    by_contra hne
    rw [kept_of_unmet_ne_nil hne] at hw
    cases hw
  unfold after at h
  split at h
  · next htaken =>
    cases hread : Reader.signature.onTokens item.tokens with
    | ok sig =>
      rw [hread] at h
      cases h
      left
      refine ⟨rfl, ?_⟩
      simp [own?, Item.fault?, htaken, hread, failure?]
    | error e =>
      rw [hread] at h
      exact .inr (hkept h)
  · cases h
  · exact .inr (hkept h)

/-- When an item comes, it is reported at most once, and so is the signature that
    waits. -/
theorem nodup_index_reports (h : ∀ j ∈ s.waitingIndex?, j < k) :
    ((s.reports kind k item).map (·.index)).Nodup := by
  unfold reports
  rw [List.map_append, List.nodup_append]
  refine ⟨s.nodup_index_unmet _, ?_, ?_⟩
  · cases s.own? kind item <;> simp
  · intro i hi j hj hij
    obtain ⟨r, hr, rfl⟩ := List.mem_map.1 hi
    obtain ⟨r', hr', rfl⟩ := List.mem_map.1 hj
    obtain ⟨e, -, rfl⟩ := List.mem_map.1 hr'
    have hbefore : r.index < k := h _ (s.index_unmet _ r hr)
    change r.index = k at hij
    omega

end Standing

namespace Item

/-- What is reported from some item on is of the items from there on, or of the signature
    that waits. -/
theorem index_reportsFrom :
    ∀ r ∈ reportsFrom kind s k items, s.waitingIndex? = some r.index ∨ k ≤ r.index := by
  induction items generalizing s k with
  | nil => exact fun r hr => .inl (s.index_unmet none r hr)
  | cons item items ih =>
    intro r hr
    rcases List.mem_append.1 hr with hr | hr
    · rcases List.mem_append.1 hr with hr | hr
      · exact .inl (s.index_unmet _ r hr)
      · obtain ⟨e, -, rfl⟩ := List.mem_map.1 hr
        exact .inr (Nat.le_refl k)
    · rcases ih r hr with hwaits | hbehind
      · rcases Standing.waitingIndex?_after kind hwaits with ⟨hown, -⟩ | ⟨hwaits, -⟩
        · exact .inr (Nat.le_of_eq hown.symm)
        · exact .inl hwaits
      · exact .inr (Nat.le_of_succ_le hbehind)

/-- The induction is on the items that are still to come. What is reported of the next one
    does not come up again behind it, since a signature that goes on waiting has not been
    reported, and one that starts to wait has no fault. -/
theorem nodup_index_reportsFrom (h : ∀ j ∈ s.waitingIndex?, j < k) :
    ((reportsFrom kind s k items).map (·.index)).Nodup := by
  induction items generalizing s k with
  | nil => exact s.nodup_index_unmet none
  | cons item items ih =>
    have hafter : ∀ j ∈ (s.after k item).waitingIndex?, j < k + 1 := by
      intro j hj
      rcases Standing.waitingIndex?_after kind hj with ⟨rfl, -⟩ | ⟨hwaits, -⟩
      · exact Nat.lt_succ_self j
      · exact Nat.lt_succ_of_lt (h j hwaits)
    unfold reportsFrom
    rw [List.map_append, List.nodup_append]
    refine ⟨Standing.nodup_index_reports h, ih hafter, ?_⟩
    intro i hi j hj hij
    -- Suppose that one item is reported now and once more behind.
    subst hij
    obtain ⟨r, hr, rfl⟩ := List.mem_map.1 hi
    obtain ⟨r', hr', hindex⟩ := List.mem_map.1 hj
    have hlater := index_reportsFrom r' hr'
    change r'.index = r.index at hindex
    rw [hindex] at hlater
    rcases List.mem_append.1 hr with hr | hr
    · have hwaits := s.index_unmet _ r hr
      have hbefore : r.index < k := h _ hwaits
      rcases hlater with hlater | hlater
      · rcases Standing.waitingIndex?_after kind hlater with ⟨hown, -⟩ | ⟨-, hnone⟩
        · omega
        · rw [hnone] at hr
          cases hr
      · omega
    · obtain ⟨e, he, rfl⟩ := List.mem_map.1 hr
      rcases hlater with hlater | hlater
      · rcases Standing.waitingIndex?_after kind hlater with ⟨-, hnone⟩ | ⟨hwaits, -⟩
        · rw [hnone] at he
          cases he
        · exact Nat.lt_irrefl k (h k hwaits)
      · exact Nat.not_succ_le_self k hlater

theorem nodup_index_start (kind : ModuleKind) (k : Nat) (items : List Item) :
    ((reportsFrom kind .start k items).map (·.index)).Nodup :=
  nodup_index_reportsFrom nofun

/-- Before all items nothing waits. -/
theorem le_index_start : ∀ r ∈ reportsFrom kind .start k items, k ≤ r.index := by
  intro r hr
  rcases index_reportsFrom r hr with hwaits | hle
  · cases hwaits
  · exact hle

theorem nodup_index_reportsPlaced (k : Nat) (items : List Item) :
    ((reportsPlaced k items).map (·.index)).Nodup ∧ ∀ r ∈ reportsPlaced k items, k ≤ r.index := by
  cases hstarts : startsWithHeader items with
  | false =>
    rw [reportsPlaced_of_not_header hstarts]
    exact ⟨nodup_index_start _ _ _, le_index_start⟩
  | true =>
    cases items with
    | nil => cases hstarts
    | cons item items =>
      rw [reportsPlaced_of_header hstarts]
      have hbehind (r : Report) (hr : r ∈ reportsFrom
          (takeHeader (item :: items)).1.kind .start (k + 1) items) : k < r.index :=
        le_index_start r hr
      cases failure? (Reader.header.onTokens item.tokens) with
      | none => exact ⟨nodup_index_start _ _ _, fun r hr => Nat.le_of_lt (hbehind r hr)⟩
      | some e =>
        constructor
        · show (k :: _).Nodup
          refine List.nodup_cons.2 ⟨?_, nodup_index_start _ _ _⟩
          intro hk
          obtain ⟨r, hr, hindex⟩ := List.mem_map.1 hk
          have hlt := hbehind r hr
          omega
        · intro r hr
          rcases List.mem_cons.1 hr with rfl | hr
          · exact Nat.le_refl k
          · exact Nat.le_of_lt (hbehind r hr)

/-- **No item is reported twice.** -/
theorem nodup_index_reportsOf (items : List Item) : ((reportsOf items).map (·.index)).Nodup := by
  by_cases hplaced : ∀ item ∈ items.head?, item.first.inFirstColumn = true
  · rw [reportsOf_of_placed hplaced]
    exact (nodup_index_reportsPlaced 0 items).1
  · cases items with
    | nil => exact absurd (by simp) hplaced
    | cons item items =>
      rw [reportsOf_of_misplaced (by simpa using hplaced)]
      obtain ⟨hnodup, hbehind⟩ := nodup_index_reportsPlaced 1 items
      refine List.nodup_cons.2 ⟨?_, hnodup⟩
      intro hzero
      obtain ⟨r, hr, hindex⟩ := List.mem_map.1 hzero
      have hle := hbehind r hr
      change r.index = 0 at hindex
      omega

end Item

end

/-! ## Places of reports -/

/-- Is the start of a span a place in the source, with its line and column? -/
def Span.StartsIn (source : List Char) (s : Span) : Prop :=
  ∃ before after, source = before ++ after ∧ s.start.toNat = byteSize before ∧
    s.line.toNat = lineAfter before ∧ s.column.toNat = columnAfter before

/-- No line has the number of that of a dummy. -/
theorem Span.StartsIn.ne_dummy {source : List Char} {s : Span} (h : s.StartsIn source) :
    s ≠ .dummy := by
  rintro rfl
  obtain ⟨before, after, -, -, hline, -⟩ := h
  change 0 = lineAfter before at hline
  unfold lineAfter at hline
  omega

/-- The place of tokens in a row starts where the first one does. -/
theorem Laid.startsIn_of_isOf {source : String} {tokens : List Token} {s : Span}
    (h : Laid source tokens) (htokens : ∀ t ∈ tokens, t.span.StartsIn source.toList)
    (hs : s.IsOf tokens) : s.StartsIn source.toList := by
  obtain ⟨part, hne, hrow, rfl⟩ := hs
  cases part with
  | nil => exact absurd rfl hne
  | cons first rest =>
    rw [(h.row hrow).spanOf_eq]
    exact htokens first (hrow.subset List.mem_cons_self)

/-- In items one behind the other, a stretch of source lies in one of them only. -/
theorem Item.eq_index_of_isWithin {items : List Item} {i j : Nat} {a b : Item} {s : Span}
    (hitems : (items.map span).Pairwise fun a b => a.stop ≤ b.start)
    (hi : items[i]? = some a) (hj : items[j]? = some b) (hne : s.start < s.stop)
    (ha : s.IsWithin a.span) (hb : s.IsWithin b.span) : i = j := by
  -- Of two different items one would end before the other one starts.
  have hapart {i j : Nat} {a b : Item} (hij : i < j) (hi : items[i]? = some a)
      (hj : items[j]? = some b) (ha : s.IsWithin a.span) (hb : s.IsWithin b.span) : False := by
    obtain ⟨hlti, rfl⟩ := List.getElem?_eq_some_iff.1 hi
    obtain ⟨hltj, rfl⟩ := List.getElem?_eq_some_iff.1 hj
    have horder : items[i].span.stop ≤ items[j].span.start := by
      have hpair := List.pairwise_iff_getElem.1 hitems i j
        (by rw [List.length_map]; exact hlti) (by rw [List.length_map]; exact hltj) hij
      simpa using hpair
    obtain ⟨-, hstop⟩ := ha
    obtain ⟨hstart, -⟩ := hb
    rw [UInt32.le_iff_toNat_le] at horder hstop hstart
    rw [UInt32.lt_iff_toNat_lt] at hne
    omega
  rcases Nat.lt_trichotomy i j with hij | hij | hij
  · exact (hapart hij hi hj ha hb).elim
  · exact hij
  · exact (hapart hij hj hi hb ha).elim

namespace Module

/-- **What the places of diagnostics are like** in a source with these items. -/
structure PlacesDiagnostics (source : String) (items : List Item) (ds : List Diagnostic) :
    Prop where
  /-- Each one lies in the extent of an item, and covers some of it. -/
  inItem : ∀ d ∈ ds, ∃ item ∈ items, d.span.IsWithin item.span ∧ d.span.start < d.span.stop
  notDummy : ∀ d ∈ ds, d.span ≠ .dummy
  /-- Its line and column are those where it starts. -/
  starts : ∀ d ∈ ds, d.span.StartsIn source.toList
  /-- No two of them lie in the same item. -/
  apart : ds.Pairwise fun a b => ∀ item ∈ items,
    ¬ (a.span.IsWithin item.span ∧ b.span.IsWithin item.span)
  length_le : ds.length ≤ items.length

/-- All that is reported while a source is read. One that cannot be cut into tokens is
    reported as such, and is read no further. -/
def log (source : String) : DiagnosticLog :=
  match Token.ofSource source with
  | .error e => ({} : DiagnosticLog).error e.span e.message
  | .ok tokens =>
    (draftOf tokens).2.2.errors.toList.foldl (fun log e => log.error e.span e.message) {}

/-- **What is said about a source.** -/
structure Diagnosed (source : String) : Prop where
  fails_iff : (∃ ds, ofSource source = .error ds) ↔ (log source).entries ≠ #[]
  complete : ∀ ds, ofSource source = .error ds → ds = (log source).entries.toList
  severity : ∀ d ∈ (log source).entries, d.severity = .error
  uncut : ∀ e, Token.ofSource source = .error e → ofSource source = .error [e.diagnostic]
  placed : ∀ tokens, Token.ofSource source = .ok tokens →
    PlacesDiagnostics source (itemsOf tokens) (log source).entries.toList

variable {source : String} {tokens : List Token}

theorem entries_foldl (errors : List SyntaxError) (log : DiagnosticLog) :
    (errors.foldl (fun log e => log.error e.span e.message) log).entries.toList =
      log.entries.toList ++ errors.map SyntaxError.diagnostic := by
  induction errors generalizing log with
  | nil => simp
  | cons e errors ih =>
    rw [List.foldl_cons, ih]
    simp [DiagnosticLog.error, DiagnosticLog.report, SyntaxError.diagnostic]

theorem entries_log_of_uncut {e : LexError} (h : Token.ofSource source = .error e) :
    (log source).entries.toList = [e.diagnostic] := by
  unfold log
  rw [h]
  rfl

/-- The log of a source that is cut into tokens holds the reports of its items. -/
theorem entries_log (h : Token.ofSource source = .ok tokens) :
    (log source).entries.toList =
      (Item.reportsOf (itemsOf tokens)).map (·.error.diagnostic) := by
  unfold log
  rw [h]
  dsimp only
  rw [entries_foldl, errors_draftOf, List.map_map]
  rfl

/-- A source fails with what the log holds, if it holds anything. -/
theorem ofSource_eq_log (source : String) :
    (ofSource source = .error (log source).entries.toList ∧ (log source).entries ≠ #[]) ∨
      (∃ m, ofSource source = .ok m) ∧ (log source).entries = #[] := by
  -- Either the tokens have a fault, and nothing else is logged, or the items have some.
  cases htokens : Token.ofSource source with
  | error e =>
    left
    have hlog := entries_log_of_uncut htokens
    refine ⟨?_, ?_⟩
    · rw [hlog]
      unfold ofSource
      rw [htokens]
    · intro hnone
      rw [hnone] at hlog
      cases hlog
  | ok tokens =>
    have hlog : (log source).entries.toList =
        (draftOf tokens).2.2.errors.toList.map SyntaxError.diagnostic := by
      unfold log
      rw [htokens]
      dsimp only
      rw [entries_foldl]
      rfl
    have hread : ofSource source = (ofTokens tokens).mapError (·.map SyntaxError.diagnostic) := by
      unfold ofSource
      rw [htokens]
    rw [ofTokens_eq] at hread
    dsimp only at hread
    by_cases hempty : (draftOf tokens).2.2.errors.isEmpty = true
    · right
      rw [if_pos hempty] at hread
      refine ⟨⟨_, hread⟩, ?_⟩
      rw [Array.isEmpty_iff.1 hempty] at hlog
      exact Array.toList_eq_nil_iff.1 hlog
    · left
      rw [if_neg hempty] at hread
      refine ⟨?_, ?_⟩
      · rw [hread, hlog]
        rfl
      · intro hnone
        rw [hnone] at hlog
        have hnil := List.map_eq_nil_iff.1 hlog.symm
        exact hempty (Array.isEmpty_iff.2 (Array.toList_eq_nil_iff.1 hnil))

theorem itemsOf_stream {stream : List Token} {last : Token} (hlast : last.kind = .eof)
    (hstream : ∀ t ∈ stream, t.kind ≠ .eof) :
    itemsOf (stream ++ [last]) = Item.cut stream := by
  have hall : ∀ t ∈ stream, (t.kind != .eof) = true := by
    intro t ht
    simpa using hstream t ht
  unfold itemsOf
  rw [List.takeWhile_append_of_pos hall]
  simp [hlast]

/-- **Every report has its own item**, in which it is placed. -/
theorem placesDiagnostics_reportsOf (hsize : (Text.toUtf8 source).length < 2 ^ 32 - 1)
    (h : Token.ofSource source = .ok tokens) :
    PlacesDiagnostics source (itemsOf tokens)
      ((Item.reportsOf (itemsOf tokens)).map (·.error.diagnostic)) := by
  obtain ⟨stream, last, rfl, hlast, hstream⟩ := Token.exists_stream h
  have hlaid := Token.laid_of_ofSource hsize h hstream
  have hplaces := (Token.ofSource_isTiledBy hsize h).placed
  have hitems : itemsOf (stream ++ [last]) = Item.cut stream := itemsOf_stream hlast hstream
  rw [hitems]
  have hall : Laid source (Item.allTokens (Item.cut stream)) := by
    rwa [Item.allTokens_cut]
  have hspans := Item.pairwise_span hall
  have hnodup := Item.nodup_index_reportsOf (Item.cut stream)
  have hisIn := Item.isIn_reportsOf (Item.cut stream)
  generalize Item.reportsOf (Item.cut stream) = reports at hnodup hisIn
  -- What a report points at lies in its item, as tokens in a row.
  have hwithin : ∀ r ∈ reports, ∃ item, (Item.cut stream)[r.index]? = some item ∧
      r.error.span.IsWithin item.span ∧ r.error.span.start < r.error.span.stop ∧
      r.error.span.StartsIn source.toList := by
    intro r hr
    obtain ⟨item, hitem, hspan⟩ := hisIn r hr
    have hrow := Item.tokens_infix_allTokens (List.mem_of_getElem? hitem)
    have hlaidItem : Laid source item.tokens := hall.row hrow
    refine ⟨item, hitem, hlaidItem.isWithin_of_isOf hspan, ?_, ?_⟩
    · obtain ⟨part, hne, hpart, heq⟩ := hspan
      rw [heq]
      exact (hlaidItem.row hpart).spanOf_nonempty hne
    · apply hlaidItem.startsIn_of_isOf _ hspan
      intro t ht
      have hmem : t ∈ stream := by
        rw [← Item.allTokens_cut stream]
        exact hrow.subset ht
      exact hplaces t (List.mem_append_left _ hmem)
  have hmem {d : Diagnostic} (hd : d ∈ reports.map (·.error.diagnostic)) :
      ∃ r ∈ reports, d.span = r.error.span := by
    obtain ⟨r, hr, rfl⟩ := List.mem_map.1 hd
    exact ⟨r, hr, rfl⟩
  constructor
  case inItem =>
    intro d hd
    obtain ⟨r, hr, hspan⟩ := hmem hd
    obtain ⟨item, hitem, hin, hne, -⟩ := hwithin r hr
    rw [hspan]
    exact ⟨item, List.mem_of_getElem? hitem, hin, hne⟩
  case notDummy =>
    intro d hd
    obtain ⟨r, hr, hspan⟩ := hmem hd
    obtain ⟨item, -, -, -, hstarts⟩ := hwithin r hr
    rw [hspan]
    exact hstarts.ne_dummy
  case starts =>
    intro d hd
    obtain ⟨r, hr, hspan⟩ := hmem hd
    obtain ⟨item, -, -, -, hstarts⟩ := hwithin r hr
    rw [hspan]
    exact hstarts
  case apart =>
    rw [List.pairwise_map]
    have hindices : reports.Pairwise fun a b => a.index ≠ b.index := List.pairwise_map.1 hnodup
    refine hindices.imp_of_mem ?_
    intro a b ha hb hne item hitem hboth
    -- Two reports in one item would both have its index.
    obtain ⟨i, hi⟩ := List.mem_iff_getElem?.1 hitem
    obtain ⟨itemA, hitemA, hinA, hneA, -⟩ := hwithin a ha
    obtain ⟨itemB, hitemB, hinB, hneB, -⟩ := hwithin b hb
    have hindexA : a.index = i := Item.eq_index_of_isWithin hspans hitemA hi hneA hinA hboth.1
    have hindexB : b.index = i := Item.eq_index_of_isWithin hspans hitemB hi hneB hinB hboth.2
    exact hne (hindexA.trans hindexB.symm)
  case length_le =>
    have hsubset : reports.map (·.index) ⊆ List.range (Item.cut stream).length := by
      intro i hi
      obtain ⟨r, hr, rfl⟩ := List.mem_map.1 hi
      obtain ⟨item, hitem, -⟩ := hwithin r hr
      exact List.mem_range.2 (List.getElem?_eq_some_iff.1 hitem).1
    have hlength := (List.subperm_of_subset hnodup hsubset).length_le
    simpa using hlength

/-- **Diagnostics are complete and well placed.** A source fails just if something was
    reported of it, and gives all that was. If it cannot be cut into tokens, that is the
    lexical error; otherwise each diagnostic lies in an item of its own, with its line and
    column, so there are no more of them than items. -/
theorem ofSource_diagnosed (hsize : (Text.toUtf8 source).length < 2 ^ 32 - 1) :
    Diagnosed source := by
  constructor
  case fails_iff =>
    rcases ofSource_eq_log source with ⟨hfails, hne⟩ | ⟨⟨m, hread⟩, hnone⟩
    · exact ⟨fun _ => hne, fun _ => ⟨_, hfails⟩⟩
    · constructor
      · rintro ⟨ds, hfails⟩
        rw [hread] at hfails
        cases hfails
      · intro hne
        exact absurd hnone hne
  case complete =>
    intro ds hds
    rcases ofSource_eq_log source with ⟨hfails, -⟩ | ⟨⟨m, hread⟩, -⟩
    · rw [hfails] at hds
      cases hds
      rfl
    · rw [hread] at hds
      cases hds
  case severity =>
    intro d hd
    rw [Array.mem_def] at hd
    cases htokens : Token.ofSource source with
    | error e =>
      rw [entries_log_of_uncut htokens, List.mem_singleton] at hd
      rw [hd]
      rfl
    | ok tokens =>
      rw [entries_log htokens] at hd
      obtain ⟨r, -, rfl⟩ := List.mem_map.1 hd
      rfl
  case uncut =>
    intro e he
    unfold ofSource
    rw [he]
  case placed =>
    intro tokens htokens
    rw [entries_log htokens]
    exact placesDiagnostics_reportsOf hsize htokens

/-- A source with a line before its header, a signature without definition, and brackets
    and a condition that are not completed. -/
def faultySource : String :=
  "  é\nmodule A exposing (..)\nx : Int\ny = (é\nz = if a\nw = x\n"

theorem ofSource_diagnosed_faulty :
    (Text.toUtf8 faultySource).length < 2 ^ 32 - 1 ∧
      (log faultySource).entries.toList.map (fun d => (d.span.line, d.span.column)) =
        [(1, 3), (3, 1), (4, 5), (5, 5)] ∧
      Diagnosed faultySource := by
  have hsize : (Text.toUtf8 faultySource).length < 2 ^ 32 - 1 := by decide +kernel
  exact ⟨hsize, by decide +kernel, ofSource_diagnosed hsize⟩

end Module

end ElmIntake
