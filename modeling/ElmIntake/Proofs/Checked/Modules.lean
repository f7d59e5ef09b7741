import ElmIntake.Proofs.Checked.Readers
import ElmIntake.Proofs.Checked.Splitter
import ElmIntake.Proofs.Checked.Tokens
import ElmIntake.Proofs.Syntax.Spans

/-! # Reading without faults

    The items that a splitter takes are those into which `itemsOf` cuts the tokens,
    and each of them is read as its reader does. So a module is read by index, with
    every step checked, and nothing goes wrong but what is reported.

    Main statement: `Splitter.reads_without_fault`. -/

namespace ElmIntake

open Machine (check loop run_check run_bind_ok loop_done loop_again)

theorem Checked.outcome_eq {ε α : Type} (result : Except ε α) :
    Checked.outcome (result.mapError .report) = .ok result := by
  cases result with
  | ok a => rfl
  | error e => rfl

/-! ## The first item -/

section

variable {t : Token} {tokens rest : List Token} {index : Nat} {item : Item} {items : List Item}

/-- Does a token belong to the item before it? -/
def Token.joins (t : Token) : Bool := t.kind != .eof && !t.inFirstColumn

theorem itemsOf_eof (h : t.kind = .eof) (rest : List Token) : itemsOf (t :: rest) = [] := by
  unfold itemsOf
  rw [List.takeWhile_cons_of_neg (by simp [h])]
  rfl

/-- The first item ends where the tokens do, or before the next one that does not join it. -/
theorem itemsOf_cons (h : t.kind ≠ .eof) (rest : List Token) :
    itemsOf (t :: rest) =
      ⟨t, rest.takeWhile Token.joins⟩ :: itemsOf (rest.dropWhile Token.joins) := by
  have hcut {t : Token} (h : t.kind ≠ .eof) (rest : List Token) :
      itemsOf (t :: rest) = Item.cut (t :: rest.takeWhile (·.kind != .eof)) := by
    unfold itemsOf
    rw [List.takeWhile_cons_of_pos (by simpa using h)]
  induction rest generalizing t with
  | nil => exact hcut h []
  | cons u rest ih =>
    have hrest : Item.cut ((u :: rest).takeWhile (·.kind != .eof)) = itemsOf (u :: rest) := rfl
    rw [hcut h, Item.cut, hrest]
    by_cases heof : u.kind = .eof
    · have hjoins : ¬u.joins = true := by simp [Token.joins, heof]
      rw [itemsOf_eof heof, List.takeWhile_cons_of_neg hjoins, List.dropWhile_cons_of_neg hjoins,
        itemsOf_eof heof]
    · rw [ih heof]
      dsimp only
      by_cases hfirst : u.inFirstColumn = true
      · have hjoins : ¬u.joins = true := by simp [Token.joins, hfirst]
        rw [if_pos hfirst, List.takeWhile_cons_of_neg hjoins, List.dropWhile_cons_of_neg hjoins,
          ih heof]
      · have hjoins : u.joins = true := by simp [Token.joins, hfirst, heof]
        rw [if_neg hfirst, List.takeWhile_cons_of_pos hjoins, List.dropWhile_cons_of_pos hjoins]
        rfl

namespace Splitter

open Walker (left lt_of_drop drop_succ)

/-- Where no token joins the item, it ends. -/
theorem run_endRound_done (h : ∀ t ∈ (tokens.drop index).head?, t.joins = false) :
    (endRound tokens ()).run index = .ok (.done (), index) := by
  unfold endRound
  rw [run_bind_ok rfl, ← List.head?_drop]
  cases hahead : (tokens.drop index).head? with
  | none => rfl
  | some t =>
    have hend : t.kind = .eof ∨ t.inFirstColumn = true := by
      have hjoins := h t hahead
      simp only [Token.joins, Bool.and_eq_false_iff, bne_eq_false_iff_eq,
        Bool.not_eq_false'] at hjoins
      exact hjoins
    dsimp only
    rw [if_pos hend]
    rfl

theorem run_endRound_again (hlength : tokens.length < 2 ^ 63)
    (hahead : tokens.drop index = t :: rest) (h : t.joins = true) :
    (endRound tokens ()).run index = .ok (.again (), index + 1) := by
  have hlt := lt_of_drop hahead
  have hmore : ¬(t.kind = .eof ∨ t.inFirstColumn = true) := by
    simp only [Token.joins, Bool.and_eq_true, bne_iff_ne, Bool.not_eq_true'] at h
    simp [h.1, h.2]
  unfold endRound
  rw [run_bind_ok rfl, ← List.head?_drop, hahead]
  dsimp only [List.head?_cons]
  rw [if_neg hmore, run_bind_ok (run_check (Checked.word_eq (by omega)))]
  rfl

/-- The rounds go as far as the tokens join the item. -/
theorem run_endRounds (hlength : tokens.length < 2 ^ 63) (hahead : tokens.drop index = rest) :
    (loop (tokens.length - ·) (endRound tokens) ()).run index =
      .ok ((), index + (rest.takeWhile Token.joins).length) := by
  induction rest generalizing index with
  | nil => exact loop_done (run_endRound_done (by simp [hahead]))
  | cons t rest ih =>
    by_cases hjoins : t.joins = true
    · have hleft : tokens.length - (index + 1) < tokens.length - index :=
        Nat.sub_lt_sub_left (lt_of_drop hahead) (Nat.lt_succ_self index)
      rw [loop_again (run_endRound_again hlength hahead hjoins) hleft, ih (drop_succ hahead),
        List.takeWhile_cons_of_pos hjoins, List.length_cons, Nat.add_assoc, Nat.add_comm 1]
    · rw [loop_done (run_endRound_done (by simpa [hahead] using hjoins)),
        List.takeWhile_cons_of_neg hjoins]
      rfl

/-- **An item is taken**: the tokens of the first item, and those of the others are left. -/
theorem run_nextItem (hlength : tokens.length < 2 ^ 63)
    (hitems : itemsOf (tokens.drop index) = item :: items) :
    ∃ next, index < next ∧ next ≤ tokens.length ∧ itemsOf (tokens.drop next) = items ∧
      nextItem.run ⟨tokens, index⟩ = .ok (item.tokens, ⟨tokens, next⟩) := by
  obtain ⟨t, rest, hahead⟩ : ∃ t rest, tokens.drop index = t :: rest := by
    cases hahead : tokens.drop index with
    | nil =>
      rw [hahead] at hitems
      cases hitems
    | cons t rest => exact ⟨t, rest, rfl⟩
  have hkind : t.kind ≠ .eof := by
    intro heof
    rw [hahead, itemsOf_eof heof] at hitems
    cases hitems
  rw [hahead, itemsOf_cons hkind] at hitems
  obtain ⟨rfl, rfl⟩ := List.cons.inj hitems
  let taken := rest.takeWhile Token.joins
  let after := rest.dropWhile Token.joins
  have hrest : rest = taken ++ after := List.takeWhile_append_dropWhile.symm
  -- The tokens are those that were read, those of the item and those behind it.
  have htokens : tokens = tokens.take index ++ (t :: taken) ++ after := by
    rw [List.append_assoc, List.cons_append, ← hrest, ← hahead, List.take_append_drop]
  have hlt := lt_of_drop hahead
  have hbefore : (tokens.take index).length = index := List.length_take_of_le (Nat.le_of_lt hlt)
  have hcount := congrArg List.length htokens
  rw [List.length_append, List.length_append, List.length_cons, hbefore] at hcount
  refine ⟨index + (taken.length + 1), by omega, by omega, ?_, ?_⟩
  · have hafter : (tokens.take index ++ (t :: taken) ++ after).drop
        (tokens.take index ++ (t :: taken)).length = after := List.drop_left
    rw [← htokens, List.length_append, hbefore, List.length_cons] at hafter
    rw [hafter]
  · -- The rounds stop at the end of the slice.
    have hslice := Checked.slice_eq (ε := Empty) (tokens.take index) (t :: taken) after
    rw [← htokens, hbefore, List.length_cons] at hslice
    have hstop := run_endRounds hlength (drop_succ hahead)
    have hend : min (index + 1 + taken.length) tokens.length = index + (taken.length + 1) := by
      omega
    have hfits : index + 1 < 2 ^ 64 := by omega
    unfold nextItem
    rw [run_bind_ok rfl, run_bind_ok (run_check (Checked.word_eq hfits)),
      run_bind_ok (run_check hstop)]
    dsimp only
    rw [hend, run_bind_ok rfl, hslice]
    rfl

theorem run_currentKind? (tokens : List Token) (index : Nat) :
    currentKind?.run ⟨tokens, index⟩ =
      .ok ((itemsOf (tokens.drop index)).head?.map (·.first.kind), ⟨tokens, index⟩) := by
  have hrun : currentKind?.run ⟨tokens, index⟩ =
      .ok (((tokens.drop index).head?.map (·.kind)).filter (· != .eof), ⟨tokens, index⟩) := by
    rw [List.head?_drop]
    rfl
  rw [hrun]
  cases hahead : tokens.drop index with
  | nil => rfl
  | cons t rest =>
    by_cases heof : t.kind = .eof
    · rw [itemsOf_eof heof, List.head?_cons, Option.map_some, heof]
      rfl
    · rw [itemsOf_cons heof, List.head?_cons, Option.map_some, Option.filter_some,
        if_pos (by simpa using heof)]
      rfl

/-! ## The beginning of a source -/

/-- Items are no longer than all tokens together. -/
theorem length_tokens_lt (hlength : tokens.length < 2 ^ 63)
    (hitem : item ∈ itemsOf (tokens.drop index)) : item.tokens.length < 2 ^ 63 := by
  have hinfix := Item.tokens_infix_allTokens hitem
  unfold itemsOf at hinfix
  rw [Item.allTokens_cut] at hinfix
  have hle := hinfix.length_le
  have htaken := (List.takeWhile_prefix (l := tokens.drop index) (·.kind != .eof)).length_le
  rw [List.length_drop] at htaken
  omega

theorem run_skipMisplaced (hlength : tokens.length < 2 ^ 63) :
    ∃ next ≤ tokens.length,
      itemsOf (tokens.drop next) = (ElmIntake.skipMisplaced (itemsOf tokens)).1 ∧
      skipMisplaced.run ⟨tokens, 0⟩ =
        .ok ((ElmIntake.skipMisplaced (itemsOf tokens)).2, ⟨tokens, next⟩) := by
  unfold skipMisplaced
  rw [run_bind_ok rfl]
  dsimp only
  cases tokens with
  | nil => exact ⟨0, Nat.le_refl 0, rfl, rfl⟩
  | cons t rest =>
    rw [List.getElem?_cons_zero]
    dsimp only
    by_cases heof : t.kind = .eof
    · rw [if_neg (by simp [heof]), itemsOf_eof heof]
      exact ⟨0, Nat.zero_le _, itemsOf_eof heof rest, rfl⟩
    · have hitems := itemsOf_cons heof rest
      rw [hitems, ElmIntake.skipMisplaced]
      dsimp only
      by_cases hcolumn : t.inFirstColumn = true
      · rw [if_pos hcolumn, if_neg (by simp [hcolumn])]
        exact ⟨0, Nat.zero_le _, hitems, rfl⟩
      · have hahead : itemsOf ((t :: rest).drop 0) = _ := hitems
        obtain ⟨next, -, hend, hrest, hrun⟩ := run_nextItem hlength hahead
        rw [if_neg hcolumn, if_pos ⟨heof, by simpa using hcolumn⟩, run_bind_ok hrun]
        exact ⟨next, hend, hrest, rfl⟩

theorem run_startsWithHeader (hlength : tokens.length < 2 ^ 63) (hindex : index ≤ tokens.length) :
    startsWithHeader.run ⟨tokens, index⟩ =
      .ok (ElmIntake.startsWithHeader (itemsOf (tokens.drop index)), ⟨tokens, index⟩) := by
  have hcurrent := run_currentKind? tokens index
  have hfits : index + 1 < 2 ^ 64 := by omega
  have hsecond : tokens[index + 1]? = (tokens.drop index)[1]? := List.getElem?_drop.symm
  have hall : Item.allTokens (itemsOf (tokens.drop index)) =
      (tokens.drop index).takeWhile (·.kind != .eof) := Item.allTokens_cut _
  unfold startsWithHeader ElmIntake.startsWithHeader
  rw [hall]
  generalize tokens.drop index = ahead at hcurrent hsecond ⊢
  rw [run_bind_ok hcurrent]
  cases ahead with
  | nil => rfl
  | cons t rest =>
    by_cases heof : t.kind = .eof
    · rw [itemsOf_eof heof, List.takeWhile_cons_of_neg (by simp [heof])]
      rfl
    · rw [itemsOf_cons heof, List.takeWhile_cons_of_pos (by simpa using heof)]
      obtain ⟨kind, span⟩ := t
      cases kind with
      | keyword word =>
        cases word with
        | portWord =>
          -- Only here the second token is looked at.
          dsimp only [List.head?_cons, Option.map_some]
          rw [run_bind_ok rfl, run_bind_ok (run_check (Checked.word_eq hfits))]
          dsimp only
          rw [hsecond]
          cases rest with
          | nil => rfl
          | cons u rest =>
            obtain ⟨second, span'⟩ := u
            cases second with
            | keyword word => cases word <;> rfl
            | _ => rfl
        | _ => rfl
      | _ => rfl

theorem run_takeHeader (hlength : tokens.length < 2 ^ 63) (hindex : index ≤ tokens.length) :
    ∃ next ≤ tokens.length,
      itemsOf (tokens.drop next) = (ElmIntake.takeHeader (itemsOf (tokens.drop index))).2.1 ∧
      takeHeader.run ⟨tokens, index⟩ =
        .ok (((ElmIntake.takeHeader (itemsOf (tokens.drop index))).1,
          (ElmIntake.takeHeader (itemsOf (tokens.drop index))).2.2), ⟨tokens, next⟩) := by
  have hstart := run_startsWithHeader hlength hindex
  unfold takeHeader ElmIntake.takeHeader
  rw [run_bind_ok hstart]
  cases hheader : ElmIntake.startsWithHeader (itemsOf (tokens.drop index)) with
  | false => exact ⟨index, hindex, rfl, rfl⟩
  | true =>
    cases hitems : itemsOf (tokens.drop index) with
    | nil =>
      rw [hitems] at hheader
      cases hheader
    | cons item items =>
      obtain ⟨next, -, hend, hrest, hrun⟩ := run_nextItem hlength hitems
      have hitem : item.tokens.length < 2 ^ 63 :=
        length_tokens_lt hlength (hitems ▸ List.mem_cons_self)
      refine ⟨next, hend, ?_⟩
      dsimp only
      rw [if_pos rfl, run_bind_ok hrun, Walker.header_follows.onTokens hitem,
        Checked.outcome_eq, run_bind_ok rfl]
      -- The item is taken whether its header can be read or not.
      cases Reader.header.onTokens item.tokens with
      | ok h => exact ⟨hrest, rfl⟩
      | error e => exact ⟨hrest, rfl⟩

theorem readDoc_eq (item : Item) : readDoc item.tokens = ElmIntake.readDoc item := by
  obtain ⟨⟨kind, span⟩, rest⟩ := item
  cases kind <;> cases rest <;> rfl

theorem run_takeDoc (hlength : tokens.length < 2 ^ 63) (index : Nat) :
    ∃ next,
      itemsOf (tokens.drop next) = (ElmIntake.takeDoc (itemsOf (tokens.drop index))).2.1 ∧
      takeDoc.run ⟨tokens, index⟩ =
        .ok (((ElmIntake.takeDoc (itemsOf (tokens.drop index))).1,
          (ElmIntake.takeDoc (itemsOf (tokens.drop index))).2.2), ⟨tokens, next⟩) := by
  unfold takeDoc ElmIntake.takeDoc
  rw [run_bind_ok (run_currentKind? tokens index)]
  cases hitems : itemsOf (tokens.drop index) with
  | nil => exact ⟨index, hitems, rfl⟩
  | cons item items =>
    obtain ⟨next, -, -, hrest, hrun⟩ := run_nextItem hlength hitems
    dsimp only [List.head?_cons, Option.map_some]
    cases hkind : item.first.kind with
    | doc text =>
      dsimp only
      rw [run_bind_ok hrun, readDoc_eq]
      cases ElmIntake.readDoc item with
      | ok doc => exact ⟨next, hrest, rfl⟩
      | error e => exact ⟨next, hrest, rfl⟩
    | _ => exact ⟨index, hitems, rfl⟩

/-! ## One item after the other -/

theorem addDoc_eq (d : Draft) (item : Item) : addDoc d item.tokens = d.addDoc item := by
  have hread := readDoc_eq item
  unfold addDoc Draft.addDoc
  cases hdoc : ElmIntake.readDoc item with
  | ok doc => rw [hread.trans hdoc]
  | error e => rw [hread.trans hdoc]

variable (hitem : item.tokens.length < 2 ^ 63)
include hitem

theorem addImport_eq (d : Draft) : addImport d item.first item.tokens = .ok (d.addImport item) := by
  unfold addImport Draft.addImport
  split
  · rfl
  · rw [Walker.import_follows.onTokens hitem, Checked.outcome_eq, Checked.bind_ok rfl]
    cases Reader.import_.onTokens item.tokens with
    | ok i => rfl
    | error e => rfl

theorem addSignature_eq (d : Draft) : addSignature d item.tokens = .ok (d.addSignature item) := by
  unfold addSignature Draft.addSignature
  rw [Walker.signature_follows.onTokens hitem, Checked.outcome_eq, Checked.bind_ok rfl]
  cases Reader.signature.onTokens item.tokens with
  | ok s => rfl
  | error e => rfl

theorem addDeclaration_eq (kind : ModuleKind) (d : Draft) :
    addDeclaration kind d item.tokens = .ok (d.addDeclaration kind item) := by
  unfold addDeclaration Draft.addDeclaration
  dsimp only
  rw [(Walker.declaration_follows kind d.pendingDoc d.pendingSignature).onTokens hitem,
    Checked.outcome_eq, Checked.bind_ok rfl]
  cases (Reader.declaration kind d.pendingDoc d.pendingSignature).onTokens item.tokens with
  | ok declaration => rfl
  | error e => rfl

theorem add_eq (kind : ModuleKind) (d : Draft) :
    add kind d item.first item.tokens = .ok (d.add kind item) := by
  have himport := addImport_eq hitem (d.settleSignature item.first.kind)
  have hsignature := addSignature_eq hitem (d.settleSignature item.first.kind)
  have hdeclaration := addDeclaration_eq hitem kind (d.settleSignature item.first.kind)
  have hdoc := addDoc_eq (d.settleSignature item.first.kind) item
  obtain ⟨⟨first, span⟩, rest⟩ := item
  -- What an item is added as is decided by its first two kinds.
  unfold add Draft.add
  cases first with
  | doc text => exact congrArg Except.ok hdoc
  | keyword word =>
    cases word with
    | importWord => exact himport
    | moduleWord => rfl
    | effectWord => rfl
    | portWord =>
      cases rest with
      | nil => exact hdeclaration
      | cons u rest =>
        obtain ⟨second, span'⟩ := u
        cases second with
        | keyword word =>
          cases word with
          | moduleWord => rfl
          | _ => exact hdeclaration
        | _ => exact hdeclaration
    | _ => exact hdeclaration
  | lowerName name =>
    cases rest with
    | nil => exact hdeclaration
    | cons u rest =>
      obtain ⟨second, span'⟩ := u
      cases second with
      | colon => exact hsignature
      | _ => exact hdeclaration
  | _ => exact hdeclaration

omit hitem

/-- The rounds read every item that is left. -/
theorem run_itemRounds (hlength : tokens.length < 2 ^ 63) (kind : ModuleKind) (d : Draft)
    (hitems : itemsOf (tokens.drop index) = items) :
    ∃ last, (loop left (itemRound kind) d).run ⟨tokens, index⟩ =
      .ok (items.foldl (Draft.add kind) d, last) := by
  induction items generalizing index d with
  | nil =>
    have hcurrent := run_currentKind? tokens index
    rw [hitems] at hcurrent
    have hround : (itemRound kind d).run ⟨tokens, index⟩ = .ok (.done d, ⟨tokens, index⟩) := by
      unfold itemRound
      rw [run_bind_ok hcurrent]
      rfl
    exact ⟨⟨tokens, index⟩, loop_done hround⟩
  | cons item items ih =>
    obtain ⟨next, hlt, hend, hrest, hrun⟩ := run_nextItem hlength hitems
    have hitem : item.tokens.length < 2 ^ 63 :=
      length_tokens_lt hlength (hitems ▸ List.mem_cons_self)
    have hcurrent := run_currentKind? tokens index
    rw [hitems] at hcurrent
    have hadd : add kind d item.first (item.first :: item.rest) = .ok (d.add kind item) :=
      add_eq hitem kind d
    have hround : (itemRound kind d).run ⟨tokens, index⟩ =
        .ok (.again (d.add kind item), ⟨tokens, next⟩) := by
      unfold itemRound
      rw [run_bind_ok hcurrent]
      dsimp only [List.head?_cons, Option.map_some]
      rw [run_bind_ok hrun]
      dsimp only [Item.tokens]
      rw [run_bind_ok (run_check hadd)]
      rfl
    -- An item has a token, so less is left behind it.
    have hless : left ⟨tokens, next⟩ < left ⟨tokens, index⟩ :=
      Nat.sub_lt_sub_left (Nat.lt_of_lt_of_le hlt hend) hlt
    rw [loop_again hround hless, List.foldl_cons]
    exact ih (d.add kind item) hrest

/-! ## Whole sources -/

/-- Any list of tokens is read by index as `Module.ofTokens` reads it. -/
theorem ofTokens_eq (hlength : tokens.length < 2 ^ 63) :
    ofTokens tokens = .ok (Module.ofTokens tokens) := by
  -- Each stage leaves the index before the items that the stage of the list leaves.
  obtain ⟨first, hfirst, hitems, hskip⟩ := run_skipMisplaced hlength
  rcases hskipped : ElmIntake.skipMisplaced (itemsOf tokens) with ⟨items, misplaced⟩
  rw [hskipped] at hitems hskip
  obtain ⟨second, hsecond, hitems', hheader⟩ := run_takeHeader hlength hfirst
  rw [hitems] at hitems' hheader
  rcases hheaded : ElmIntake.takeHeader items with ⟨header, items', inHeader⟩
  rw [hheaded] at hitems' hheader
  obtain ⟨third, hitems'', hdoc⟩ := run_takeDoc hlength second
  rw [hitems'] at hitems'' hdoc
  rcases hdocumented : ElmIntake.takeDoc items' with ⟨documentation, items'', inDoc⟩
  rw [hdocumented] at hitems'' hdoc
  obtain ⟨last, hrounds⟩ := run_itemRounds hlength header.kind
    (.start (misplaced ++ inHeader ++ inDoc)) hitems''
  let draft := items''.foldl (Draft.add header.kind) (.start (misplaced ++ inHeader ++ inDoc))
  have hread : readAll.run' ⟨tokens, 0⟩ = .ok (header, documentation, draft.finish) := by
    change Prod.fst <$> readAll.run ⟨tokens, 0⟩ = _
    unfold readAll
    rw [run_bind_ok hskip, run_bind_ok hheader]
    dsimp only
    rw [run_bind_ok hdoc]
    dsimp only
    rw [run_bind_ok hrounds]
    rfl
  unfold ofTokens Module.ofTokens
  rw [Checked.bind_ok hread, hskipped]
  dsimp only
  rw [hheaded]
  dsimp only
  rw [hdocumented]
  dsimp only
  split
  · rfl
  · rfl

/-- The tokens of a source are no more than its characters and its end. -/
theorem length_le_of_tiling {before unread : List Char} (h : Tiling before unread tokens) :
    tokens.length ≤ unread.length + 1 := by
  induction h with
  | done => exact Nat.le_add_left 1 _
  | @token before gap text rest t ts _ hne _ _ _ ih =>
    have hpos := List.length_pos_iff.2 hne
    rw [List.length_cons, List.length_append, List.length_append]
    omega

/-- Any source that is not too long is read by index as `Module.ofSource` reads it. -/
theorem ofSource_eq {source : String} (hsize : (Text.toUtf8 source).length < 2 ^ 32 - 1) :
    ofSource source = .ok (Module.ofSource source) := by
  unfold ofSource Module.ofSource
  rw [Scanner.run_tokenize hsize, Checked.outcome_eq, Checked.bind_ok rfl]
  cases htokens : Token.ofSource source with
  | error e => rfl
  | ok tokens =>
    obtain ⟨pieces, hcuts, rfl⟩ := Token.exists_cuts htokens
    have hcount := length_le_of_tiling (Tiling.of_cuts hcuts [] hsize)
    have hshort : source.toList.length < 2 ^ 32 - 1 :=
      Nat.lt_of_le_of_lt (length_le_byteSize source.toList) hsize
    have hlength : (placePieces .start pieces).length < 2 ^ 63 :=
      Nat.lt_of_le_of_lt hcount (by omega)
    dsimp only
    rw [Checked.bind_ok (ofTokens_eq hlength)]
    rfl

end Splitter

end

/-- **Reading never goes wrong but in what it reports.** By index and with every step checked,
    a source of fewer than 2 ^ 32 - 1 bytes is read as `Module.ofSource` reads it, and a list of
    tokens, which may be any one that a machine of 64 bits can hold, as `Module.ofTokens` does.
    So no index is out of bounds, no text is cut within a character, no number leaves its word
    and no round of a loop takes nothing. -/
theorem Splitter.reads_without_fault :
    (∀ source : String, (Text.toUtf8 source).length < 2 ^ 32 - 1 →
      ofSource source = .ok (Module.ofSource source)) ∧
    ∀ tokens : List Token, tokens.length < 2 ^ 63 →
      ofTokens tokens = .ok (Module.ofTokens tokens) :=
  ⟨fun _ => ofSource_eq, fun _ => ofTokens_eq⟩

/-- A port module with a comment within another one, characters of several bytes and an
    argument in brackets. -/
def greeting : String :=
  "port module A exposing (f, T(..))\n\nport p : Int\n\ntype T a = B (T a) | C\n\n" ++
    "f (x, y) = \"ü\" ++ x {- ä {- -} -}\n"

/-- A good source, and tokens that no source has: its end stands between them, behind a bracket
    that is not closed. -/
theorem Splitter.reads_without_fault_greeting :
    (∃ m, ofSource greeting = .ok (.ok m)) ∧
      ofTokens [⟨.lowerName "f", ⟨0, 1, 1, 1⟩⟩, ⟨.opening .paren, ⟨1, 2, 1, 2⟩⟩,
        ⟨.equals, ⟨2, 3, 1, 3⟩⟩, ⟨.eof, .dummy⟩, ⟨.closing .brace, .dummy⟩] =
        .ok (.error [⟨.unclosed "(", ⟨1, 2, 1, 2⟩⟩]) := by
  obtain ⟨hsource, htokens⟩ := reads_without_fault
  constructor
  · rw [hsource greeting (by decide +kernel)]
    have hgood : (Module.ofSource greeting).toOption.isSome = true := by decide +kernel
    cases hread : Module.ofSource greeting with
    | error ds =>
      rw [hread] at hgood
      cases hgood
    | ok m => exact ⟨m, rfl⟩
  · rw [htokens _ (by decide)]
    decide +kernel

end ElmIntake
