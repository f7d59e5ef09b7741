import ElmIntake.Proofs.Checked.Walker

/-! # Walkers follow readers

    A walker **follows** a reader if the two agree from every place within the tokens:
    they make the same report, or have the same value and stop at the same place. Two
    walkers, run one after the other, follow two readers if each one does, and so a
    walker is compared with its reader step by step. `Follows` counts what is read,
    for the place of the token read last is known only behind the first one. -/

namespace ElmIntake

open Machine (run_check run_bind_ok)

/-! ## Places -/

/-- The cursor behind the first `index` tokens. -/
def Cursor.behindFirst (tokens : List Token) (index : Nat) : Cursor :=
  ⟨((tokens.take index).getLast?.map (·.span)).getD .dummy, tokens.drop index⟩

namespace Walker

/-- Does a walk end as a reader does? Then it has the same value and has read at least
    up to `low`, as far as the reader, or both make the same report. -/
inductive Agrees {α : Type} (tokens : List Token) (low : Nat) :
    Checked SyntaxError (α × Walker) → Except SyntaxError (α × Cursor) → Prop where
  | value {a : α} {index : Nat} : low ≤ index → index ≤ tokens.length →
      Agrees tokens low (.ok (a, ⟨tokens, index⟩)) (.ok (a, .behindFirst tokens index))
  | report {e : SyntaxError} : Agrees tokens low (.error (.report e)) (.error e)

/-- Does a walk do what a reader does, from everywhere behind the first `n` tokens, and read
    at least `k` more where it succeeds? -/
def Follows {α : Type} (n k : Nat) (walk : Walk α) (reader : Reader α) : Prop :=
  ∀ (tokens : List Token) (index : Nat), tokens.length < 2 ^ 63 → n ≤ index →
    index ≤ tokens.length →
    Agrees tokens (index + k) (walk.run ⟨tokens, index⟩)
      (reader.run (.behindFirst tokens index))

/-- Having read up to some place is having read up to an earlier one. -/
theorem Agrees.from {α : Type} {tokens : List Token} {low high : Nat}
    {x : Checked SyntaxError (α × Walker)} {y : Except SyntaxError (α × Cursor)}
    (h : Agrees tokens high x y) (hlow : low ≤ high) : Agrees tokens low x y := by
  cases h with
  | value hle hend => exact .value (Nat.le_trans hlow hle) hend
  | report => exact .report

/-- Two steps one after the other, the second one from where the first one stops. -/
theorem Agrees.bind {α β : Type} {tokens : List Token} {mid low : Nat} {w : Walker} {c : Cursor}
    {walk : Walk α} {reader : Reader α} {next : α → Walk β} {next' : α → Reader β}
    (h : Agrees tokens mid (walk.run w) (reader.run c))
    (hnext : ∀ a index, mid ≤ index → index ≤ tokens.length →
      Agrees tokens low ((next a).run ⟨tokens, index⟩)
        ((next' a).run (.behindFirst tokens index))) :
    Agrees tokens low ((walk >>= next).run w) ((reader >>= next').run c) := by
  rw [StateT.run_bind, StateT.run_bind]
  generalize walk.run w = x at h ⊢
  generalize reader.run c = y at h ⊢
  cases h with
  | value hle hend => exact hnext _ _ hle hend
  | report => exact .report

/-! ## Where walkers stand -/

section Places

variable {tokens rest : List Token} {index : Nat} {t : Token}

theorem behindFirst_zero (tokens : List Token) :
    Cursor.behindFirst tokens 0 = .start tokens := by
  simp [Cursor.behindFirst, Cursor.start]

theorem skip_behindFirst (tokens : List Token) (index count : Nat) :
    (Cursor.behindFirst tokens index).skip count = .behindFirst tokens (index + count) := by
  unfold Cursor.skip Cursor.behindFirst
  dsimp only
  rw [List.take_add, List.getLast?_append, List.drop_drop]
  cases ((tokens.drop index).take count).getLast? with
  | none => simp
  | some t => simp

theorem lt_of_drop (h : tokens.drop index = t :: rest) : index < tokens.length := by
  have hlength := congrArg List.length h
  rw [List.length_drop, List.length_cons] at hlength
  omega

theorem drop_succ (h : tokens.drop index = t :: rest) : tokens.drop (index + 1) = rest := by
  rw [← List.drop_drop, h]
  rfl

/-- Behind a token less is left. -/
theorem left_succ (h : tokens.drop index = t :: rest) :
    left ⟨tokens, index + 1⟩ < left ⟨tokens, index⟩ :=
  Nat.sub_lt_sub_left (lt_of_drop h) (Nat.lt_succ_self index)

theorem getElem?_of_drop (h : tokens.drop index = t :: rest) (k : Nat) :
    tokens[index + k]? = (t :: rest)[k]? := by
  rw [← h, List.getElem?_drop]

theorem run_current? (tokens : List Token) (index : Nat) :
    current?.run ⟨tokens, index⟩ = .ok ((tokens.drop index).head?, ⟨tokens, index⟩) := by
  rw [List.head?_drop]
  rfl

theorem run_peek? (hlength : tokens.length < 2 ^ 63) (hindex : index ≤ tokens.length) {k : Nat}
    (hk : k ≤ 1) :
    (peek? k).run ⟨tokens, index⟩ =
      .ok ((tokens.drop index)[k]?.map (·.kind), ⟨tokens, index⟩) := by
  have hfits : index + k < 2 ^ 64 := by omega
  unfold peek?
  rw [run_bind_ok rfl, run_bind_ok (run_check (Checked.word_eq hfits)), List.getElem?_drop]
  rfl

theorem run_advance (hlength : tokens.length < 2 ^ 63) (h : tokens.drop index = t :: rest) :
    advance.run ⟨tokens, index⟩ = .ok (some t, ⟨tokens, index + 1⟩) := by
  have hlt := lt_of_drop h
  have hfits : index + 1 < 2 ^ 64 := by omega
  have htoken : tokens[index]? = some t := getElem?_of_drop h 0
  unfold advance
  rw [run_bind_ok rfl]
  dsimp only
  rw [htoken]
  dsimp only
  rw [run_bind_ok (run_check (Checked.word_eq hfits)), run_bind_ok rfl]
  rfl

theorem run_advance_end (h : tokens.drop index = []) :
    advance.run ⟨tokens, index⟩ = .ok (none, ⟨tokens, index⟩) := by
  have htoken : tokens[index]? = none := by
    rw [← List.head?_drop, h]
    rfl
  unfold advance
  rw [run_bind_ok rfl]
  dsimp only
  rw [htoken]
  rfl

/-- Behind a token its place is remembered. -/
theorem run_behind (hpos : 0 < index) (hindex : index ≤ tokens.length) :
    behind.run ⟨tokens, index⟩ =
      .ok ((Cursor.behindFirst tokens index).behind, ⟨tokens, index⟩) := by
  have hlast : (tokens.take index).getLast? = tokens[index - 1]? := by
    rw [List.getLast?_eq_getElem?, List.length_take, Nat.min_eq_left hindex,
      List.getElem?_take_of_lt (by omega)]
  obtain ⟨t, ht⟩ : ∃ t, tokens[index - 1]? = some t :=
    ⟨_, List.getElem?_eq_getElem (by omega)⟩
  unfold behind Cursor.behindFirst
  rw [run_bind_ok rfl, if_pos hpos]
  dsimp only
  rw [run_bind_ok (run_check (Checked.minus_eq hpos)), hlast, ht]
  rfl

theorem run_here (hindex : index ≤ tokens.length) :
    here.run ⟨tokens, index⟩ = .ok ((Cursor.behindFirst tokens index).span, ⟨tokens, index⟩) := by
  unfold here Cursor.span
  rw [run_bind_ok (run_current? tokens index)]
  change _ = Except.ok (((tokens.drop index).head?.map (·.span)).getD
    (Cursor.behindFirst tokens index).behind, _)
  cases hahead : tokens.drop index with
  | cons t rest => rfl
  | nil =>
    dsimp only [List.head?_nil]
    rcases Nat.eq_zero_or_pos index with rfl | hpos
    · -- There is no token at all.
      obtain rfl : tokens = [] := hahead
      rfl
    · rw [run_behind hpos hindex]
      rfl

end Places

/-! ## Steps one after the other -/

section

variable {α β : Type} {n k K : Nat}

theorem Follows.pure (a : α) : Follows n 0 (Pure.pure a) (Pure.pure a) :=
  fun _ _ _ _ hindex => .value (Nat.le_refl _) hindex

theorem Follows.failAt (cause : SyntaxCause) (span : Span) :
    Follows (α := α) n k (Walker.failAt cause span) (Reader.failAt cause span) :=
  fun _ _ _ _ _ => .report

theorem Follows.mono {walk : Walk α} {reader : Reader α} {m : Nat} (h : Follows n k walk reader)
    (hn : n ≤ m) (hk : K ≤ k) : Follows m K walk reader := by
  intro tokens index hlength hindex hend
  exact (h tokens index hlength (Nat.le_trans hn hindex) hend).from (by omega)

/-- A step and then another one: what both read is read. -/
theorem Follows.bind_both {walk : Walk α} {reader : Reader α} {next : α → Walk β}
    {next' : α → Reader β} {k' : Nat} (h : Follows n k walk reader)
    (hnext : ∀ a, Follows (n + k) k' (next a) (next' a)) :
    Follows n (k + k') (walk >>= next) (reader >>= next') := by
  intro tokens index hlength hindex hend
  refine (h tokens index hlength hindex hend).bind fun a mid hlow hle => ?_
  exact (hnext a tokens mid hlength (by omega) hle).from (by omega)

/-- A step that reads, and then others. -/
theorem Follows.bind {walk : Walk α} {reader : Reader α} {next : α → Walk β}
    {next' : α → Reader β} (h : Follows n k walk reader)
    (hnext : ∀ a, Follows (n + k) 0 (next a) (next' a)) :
    Follows n k (walk >>= next) (reader >>= next') :=
  h.bind_both hnext

/-- The same, where no more need be known than that nothing is given back. -/
theorem Follows.andThen {walk : Walk α} {reader : Reader α} {next : α → Walk β}
    {next' : α → Reader β} (h : Follows n k walk reader)
    (hnext : ∀ a, Follows (n + k) 0 (next a) (next' a)) :
    Follows n 0 (walk >>= next) (reader >>= next') :=
  (h.bind hnext).mono (Nat.le_refl n) (Nat.zero_le k)

/-- A step that need not read, and then others. -/
theorem Follows.bind_look {walk : Walk α} {reader : Reader α} {next : α → Walk β}
    {next' : α → Reader β} (h : Follows n 0 walk reader)
    (hnext : ∀ a, Follows n k (next a) (next' a)) :
    Follows n k (walk >>= next) (reader >>= next') :=
  (h.bind_both hnext).mono (Nat.le_refl n) (Nat.le_of_eq (Nat.zero_add k).symm)

theorem Follows.answer (outcome : Except SyntaxError α) :
    Follows n 0 (Walker.answer outcome) (liftM outcome) := by
  intro tokens index _ _ hend
  cases outcome with
  | error e => exact .report
  | ok a => exact .value (Nat.le_refl _) hend

theorem Follows.check {c : Checked SyntaxError α} {outcome : Except SyntaxError α}
    (h : c = outcome.mapError .report) : Follows n 0 (Machine.check c) (liftM outcome) := by
  rw [h]
  exact .answer outcome

/-- The outcome for a whole item. -/
theorem Follows.onTokens {walk : Walk α} {reader : Reader α} (h : Follows 0 k walk reader)
    {tokens : List Token} (hlength : tokens.length < 2 ^ 63) :
    Walker.onTokens walk tokens = (reader.onTokens tokens).mapError .report := by
  have hrun := h tokens 0 hlength (Nat.le_refl 0) (Nat.zero_le _)
  rw [behindFirst_zero] at hrun
  change Prod.fst <$> walk.run ⟨tokens, 0⟩ = Except.mapError _ (Prod.fst <$> reader.run _)
  generalize walk.run _ = x at hrun ⊢
  generalize reader.run _ = y at hrun ⊢
  cases hrun with
  | value => rfl
  | report => rfl

end

/-! ## Single steps -/

section

variable {α : Type} {n : Nat}

theorem peekSecond?_follows : Follows n 0 (peek? 1) Reader.peekSecond? := by
  intro tokens index hlength _ hindex
  rw [run_peek? hlength hindex (Nat.le_refl 1)]
  exact .value (Nat.le_refl _) hindex

theorem here_follows : Follows n 0 here Reader.here := by
  intro tokens index _ _ hindex
  rw [run_here hindex]
  exact .value (Nat.le_refl _) hindex

theorem behind_follows (hn : 0 < n) : Follows n 0 behind Reader.behind := by
  intro tokens index _ hn' hindex
  rw [run_behind (by omega) hindex]
  exact .value (Nat.le_refl _) hindex

theorem since_follows (hn : 0 < n) (first : Span) :
    Follows n 0 (since first) (Reader.since first) :=
  (behind_follows hn).bind_look fun _ => .pure _

theorem fail_follows {k : Nat} (cause : SyntaxCause) :
    Follows (α := α) n k (fail cause) (Reader.fail cause) :=
  here_follows.bind_look fun _ => .failAt cause _

theorem missing_follows {k : Nat} (what : Expected) :
    Follows (α := α) n k (missing what) (Reader.missing what) :=
  fail_follows _

end

/-! ## Reading a token -/

section

variable {α : Type} {tokens rest : List Token} {index n : Nat} {t : Token} {kind : TokenKind}

theorem ahead_behindFirst : (Cursor.behindFirst tokens index).ahead = tokens.drop index := rfl

theorem reader_get (f : Cursor → Reader α) (c : Cursor) :
    (get >>= f).run c = (f c).run c := rfl

theorem reader_peek? (f : Option TokenKind → Reader α) :
    (Reader.peek? >>= f).run (.behindFirst tokens index) =
      (f ((tokens.drop index).head?.map (·.kind))).run (.behindFirst tokens index) := rfl

theorem reader_next (h : tokens.drop index = t :: rest) (what : Expected)
    (f : Token → Reader α) :
    (Reader.next what >>= f).run (.behindFirst tokens index) =
      (f t).run (.behindFirst tokens (index + 1)) := by
  have hrun : (Reader.next what).run (.behindFirst tokens index) =
      .ok (t, .behindFirst tokens (index + 1)) := by
    unfold Reader.next
    rw [reader_get, ahead_behindFirst, h, ← skip_behindFirst]
    rfl
  rw [StateT.run_bind, hrun]
  rfl

theorem reader_next_end (h : tokens.drop index = []) (what : Expected) (f : Token → Reader α) :
    (Reader.next what >>= f).run (.behindFirst tokens index) =
      .error ⟨.expected what, (Cursor.behindFirst tokens index).span⟩ := by
  have hrun : (Reader.next what).run (.behindFirst tokens index) =
      .error ⟨.expected what, (Cursor.behindFirst tokens index).span⟩ := by
    unfold Reader.next
    rw [reader_get, ahead_behindFirst, h]
    rfl
  rw [StateT.run_bind, hrun]
  rfl

/-- A token of a kind that is looked for. -/
theorem exists_of_head? (h : (tokens.drop index).head?.map (·.kind) = some kind) :
    ∃ t rest, tokens.drop index = t :: rest ∧ t.kind = kind := by
  cases hahead : tokens.drop index with
  | nil =>
    rw [hahead] at h
    cases h
  | cons t rest =>
    rw [hahead] at h
    exact ⟨t, rest, rfl, Option.some.inj h⟩

theorem run_accept_pos (hlength : tokens.length < 2 ^ 63) (h : tokens.drop index = t :: rest)
    (hkind : t.kind = kind) :
    (accept kind).run ⟨tokens, index⟩ = .ok (true, ⟨tokens, index + 1⟩) := by
  unfold accept
  rw [run_bind_ok (run_peek? hlength (Nat.le_of_lt (lt_of_drop h)) (by decide)), h,
    List.getElem?_cons_zero, Option.map_some, hkind, if_pos rfl,
    run_bind_ok (run_advance hlength h)]
  rfl

theorem run_accept_neg (hlength : tokens.length < 2 ^ 63) (hindex : index ≤ tokens.length)
    (h : (tokens.drop index).head?.map (·.kind) ≠ some kind) :
    (accept kind).run ⟨tokens, index⟩ = .ok (false, ⟨tokens, index⟩) := by
  rw [List.head?_eq_getElem?] at h
  unfold accept
  rw [run_bind_ok (run_peek? hlength hindex (by decide)), if_neg h]
  rfl

theorem reader_accept_pos (h : tokens.drop index = t :: rest) (hkind : t.kind = kind) :
    (Reader.accept kind).run (.behindFirst tokens index) =
      .ok (true, .behindFirst tokens (index + 1)) := by
  unfold Reader.accept
  rw [reader_peek?, h, List.head?_cons, Option.map_some, hkind, if_pos rfl, ← skip_behindFirst]
  rfl

theorem reader_accept_neg (h : (tokens.drop index).head?.map (·.kind) ≠ some kind) :
    (Reader.accept kind).run (.behindFirst tokens index) =
      .ok (false, .behindFirst tokens index) := by
  unfold Reader.accept
  rw [reader_peek?, if_neg h]
  rfl

theorem next_follows (what : Expected) : Follows n 1 (next what) (Reader.next what) := by
  intro tokens index hlength _ hindex
  rw [← bind_pure (Reader.next what)]
  unfold next
  rw [run_bind_ok (run_here hindex)]
  cases hahead : tokens.drop index with
  | cons t rest =>
    rw [run_bind_ok (run_advance hlength hahead), reader_next hahead]
    exact .value (Nat.le_refl _) (lt_of_drop hahead)
  | nil =>
    rw [run_bind_ok (run_advance_end hahead), reader_next_end hahead]
    exact .report

theorem accept_follows (kind : TokenKind) : Follows n 0 (accept kind) (Reader.accept kind) := by
  intro tokens index hlength _ hindex
  by_cases h : (tokens.drop index).head?.map (·.kind) = some kind
  · obtain ⟨t, rest, hahead, hkind⟩ := exists_of_head? h
    rw [run_accept_pos hlength hahead hkind, reader_accept_pos hahead hkind]
    exact .value (Nat.le_succ _) (lt_of_drop hahead)
  · rw [run_accept_neg hlength hindex h, reader_accept_neg h]
    exact .value (Nat.le_refl _) hindex

theorem expect_follows (kind : TokenKind) (what : Expected) :
    Follows n 1 (expect kind what) (Reader.expect kind what) := by
  intro tokens index hlength hn hindex
  unfold expect Reader.expect
  rw [run_bind_ok (run_peek? hlength hindex (by decide)), ← List.head?_eq_getElem?]
  change Agrees _ _ _ (StateT.run (Reader.accept kind >>= fun accepted =>
    if accepted then pure (Cursor.behindFirst tokens index).span else Reader.missing what) _)
  by_cases h : (tokens.drop index).head?.map (·.kind) = some kind
  · obtain ⟨t, rest, hahead, hkind⟩ := exists_of_head? h
    have hspan : (Cursor.behindFirst tokens index).span = t.span := by
      unfold Cursor.span Cursor.behindFirst
      rw [hahead]
      rfl
    rw [if_pos h, run_bind_ok (run_advance hlength hahead), StateT.run_bind,
      reader_accept_pos hahead hkind, hspan]
    exact .value (Nat.le_refl _) (lt_of_drop hahead)
  · rw [if_neg h, StateT.run_bind, reader_accept_neg h]
    exact missing_follows what tokens index hlength hn hindex

theorem expectKeyword_follows (word : Keyword) (what : Expected) :
    Follows n 1 (expectKeyword word what) (Reader.expectKeyword word what) := by
  intro tokens index hlength hn hindex
  unfold expectKeyword Reader.expectKeyword Reader.expect
  change Agrees _ _ _ (StateT.run ((Reader.accept (.keyword word) >>= fun accepted =>
    if accepted then pure (Cursor.behindFirst tokens index).span else Reader.missing what) >>=
      fun _ => pure ()) _)
  by_cases h : (tokens.drop index).head?.map (·.kind) = some (.keyword word)
  · obtain ⟨t, rest, hahead, hkind⟩ := exists_of_head? h
    rw [run_bind_ok (run_accept_pos hlength hahead hkind), StateT.run_bind, StateT.run_bind,
      reader_accept_pos hahead hkind]
    exact .value (Nat.le_refl _) (lt_of_drop hahead)
  · rw [run_bind_ok (run_accept_neg hlength hindex h), StateT.run_bind, StateT.run_bind,
      reader_accept_neg h]
    have hmissing := missing_follows (α := Unit) (k := 1) what tokens index hlength hn hindex
    exact hmissing

/-- What is left of the tokens, and then what is done with it. -/
theorem Follows.bind_remaining {walk : List Token → Walk α} {reader : List Token → Reader α}
    (h : ∀ rest : List Token, rest.length < 2 ^ 63 → Follows n 0 (walk rest) (reader rest)) :
    Follows n 0 (remaining >>= walk) (Reader.remaining >>= reader) := by
  intro tokens index hlength hn hindex
  have hrest : (tokens.drop index).length < 2 ^ 63 := by
    rw [List.length_drop]
    omega
  have hslice : Checked.sliceFrom (ε := SyntaxError) tokens (min index tokens.length) =
      .ok (tokens.drop index) := by
    have htokens := Checked.sliceFrom_eq (ε := SyntaxError) (tokens.take index) (tokens.drop index)
    rwa [List.take_append_drop, List.length_take] at htokens
  have hwalk : remaining.run ⟨tokens, index⟩ =
      .ok (tokens.drop index, ⟨tokens, tokens.length⟩) := by
    unfold remaining
    rw [run_bind_ok rfl, run_bind_ok (run_check hslice), run_bind_ok rfl]
    rfl
  have hreader : Reader.remaining.run (.behindFirst tokens index) =
      .ok (tokens.drop index, .behindFirst tokens tokens.length) := by
    change Except.ok (tokens.drop index, Cursor.skip _ (tokens.drop index).length) = _
    rw [skip_behindFirst, List.length_drop, Nat.add_sub_cancel' hindex]
  rw [run_bind_ok hwalk, StateT.run_bind, hreader]
  have hagrees := h _ hrest tokens tokens.length hlength (Nat.le_trans hn hindex) (Nat.le_refl _)
  exact hagrees.from hindex

theorem expectEnd_follows (item : Complete) :
    Follows n 0 (expectEnd item) (Reader.expectEnd item) := by
  intro tokens index _ _ hindex
  unfold expectEnd Reader.expectEnd
  rw [run_bind_ok (run_current? tokens index), reader_get, ahead_behindFirst]
  cases (tokens.drop index).head? with
  | none => exact .value (Nat.le_refl _) hindex
  | some t => exact .report

end

end Walker

end ElmIntake
