import ElmIntake.Proofs.Checked.Scanner

/-! # Single steps of a scanner

    A scanner that has taken a part of its source is known by that part: its index,
    its offset, its line and its column follow from it. So each step is an equation
    from one part taken to a longer one, and no check in it fails while the source has
    fewer than 2 ^ 32 - 1 bytes. -/

namespace ElmIntake

open Machine (run_bind_ok run_check loop loop_done loop_again)

/-! ## Where a scanner stands -/

/-- A source whose bytes can be counted, parted where a scanner stands. -/
structure Splits (whole taken unread : List Char) : Prop where
  source : taken ++ unread = whole
  size : byteSize whole < 2 ^ 32 - 1

/-- The scanner that has taken a part of the source `whole`. -/
def Scanner.past (whole taken : List Char) : Scanner :=
  ⟨whole, charIndices 0 whole, taken.length, lineAfter taken, columnAfter taken⟩

section Places

variable {whole taken unread text rest : List Char} {c : Char} {cs : List Char}

namespace Splits

theorem ahead (h : Splits whole taken (text ++ rest)) : Splits whole (taken ++ text) rest :=
  ⟨by rw [List.append_assoc, h.source], h.size⟩

theorem next (h : Splits whole taken (c :: cs)) : Splits whole (taken ++ [c]) cs :=
  ahead h

theorem overClass (h : Splits whole taken cs) (p : Char → Bool) :
    Splits whole (taken ++ cs.takeWhile p) (cs.dropWhile p) := by
  apply ahead
  rwa [List.takeWhile_append_dropWhile]

theorem byteSize_eq (h : Splits whole taken unread) :
    byteSize whole = byteSize taken + byteSize unread := by
  rw [← h.source, byteSize_append]

theorem length_eq (h : Splits whole taken unread) :
    whole.length = taken.length + unread.length := by
  rw [← h.source, List.length_append]

theorem byteSize_lt (h : Splits whole taken unread) : byteSize taken < 2 ^ 32 - 1 := by
  have heq := h.byteSize_eq
  have hsize := h.size
  omega

end Splits

/-! ## The table of characters -/

theorem map_charIndices (n : Nat) (cs : List Char) : (charIndices n cs).map (·.2) = cs := by
  induction cs generalizing n with
  | nil => rfl
  | cons c cs ih => exact congrArg (c :: ·) (ih _)

theorem length_charIndices (n : Nat) (cs : List Char) : (charIndices n cs).length = cs.length := by
  have hmap := congrArg List.length (map_charIndices n cs)
  rwa [List.length_map] at hmap

theorem charIndices_append (n : Nat) (text cs : List Char) :
    charIndices n (text ++ cs) = charIndices n text ++ charIndices (n + byteSize text) cs := by
  induction text generalizing n with
  | nil => rfl
  | cons c text ih =>
    have hsize : byteSize (c :: text) = c.utf8Size + byteSize text := by
      rw [← List.singleton_append, byteSize_append, byteSize_singleton]
    rw [List.cons_append, charIndices, ih, hsize, ← Nat.add_assoc]
    rfl

/-- Behind the bytes of a text stands what follows it. -/
theorem textFrom_byteSize {ε : Type} (text rest : List Char) :
    Checked.textFrom (ε := ε) (byteSize text) (text ++ rest) = .ok rest := by
  induction text with
  | nil => simp [byteSize, Checked.textFrom]
  | cons c text ih =>
    have hsize : byteSize (c :: text) = c.utf8Size + byteSize text := by
      rw [← List.singleton_append, byteSize_append, byteSize_singleton]
    have hpos := c.utf8Size_pos
    obtain ⟨n, hn⟩ : ∃ n, c.utf8Size + byteSize text = n + 1 :=
      Nat.exists_eq_succ_of_ne_zero (by omega)
    have hle : c.utf8Size ≤ n + 1 := by omega
    have hrest : n + 1 - c.utf8Size = byteSize text := by omega
    rw [hsize, hn, List.cons_append, Checked.textFrom, if_pos hle, hrest]
    exact ih

/-! ## Single steps -/

namespace Scanner

theorem start_eq (source : List Char) : start source = past source [] := rfl

theorem getElem?_table (h : Splits whole taken unread) (k : Nat) :
    (past whole taken).table[taken.length + k]? = (charIndices (byteSize taken) unread)[k]? := by
  change (charIndices 0 whole)[taken.length + k]? = _
  rw [← h.source, charIndices_append, Nat.zero_add, List.getElem?_append_right
    (by rw [length_charIndices]; exact Nat.le_add_right _ _), length_charIndices,
    Nat.add_sub_cancel_left]

/-- The offset is the size of what has been taken. -/
theorem offset_past (h : Splits whole taken unread) :
    (past whole taken).offset = byteSize taken := by
  have htable := getElem?_table h 0
  unfold offset
  rw [Nat.add_zero] at htable
  rw [show (past whole taken).index = taken.length from rfl, htable]
  cases unread with
  | nil =>
    have hwhole := h.source
    rw [List.append_nil] at hwhole
    rw [hwhole]
    rfl
  | cons c cs => rfl

theorem position_past (h : Splits whole taken unread) :
    (past whole taken).position = Position.start.past taken := by
  unfold position
  rw [offset_past h, Position.past_start]
  rfl

theorem left_past (h : Splits whole taken unread) : (past whole taken).left = unread.length := by
  have hlength := h.length_eq
  change (charIndices 0 whole).length - taken.length = unread.length
  rw [length_charIndices]
  omega

/-- Whoever reads something has less left. -/
theorem left_lt (h : Splits whole taken (text ++ rest)) (hne : text ≠ []) :
    (past whole (taken ++ text)).left < (past whole taken).left := by
  have hpos := List.length_pos_iff.2 hne
  rw [left_past h, left_past h.ahead, List.length_append]
  omega

theorem left_lt_next (h : Splits whole taken (c :: cs)) :
    (past whole (taken ++ [c])).left < (past whole taken).left :=
  left_lt (show Splits whole taken ([c] ++ cs) from h) (List.cons_ne_nil _ _)

theorem run_peek? (h : Splits whole taken unread) {k : Nat} (hk : k ≤ 2) :
    (peek? k).run (past whole taken) = .ok (unread[k]?, past whole taken) := by
  have hsize := h.byteSize_lt
  have hlength := length_le_byteSize taken
  have hindex : (past whole taken).index + k < 2 ^ 64 := by
    change taken.length + k < 2 ^ 64
    omega
  unfold peek?
  rw [run_bind_ok rfl, run_bind_ok (run_check (Checked.word_eq hindex))]
  change Except.ok (((past whole taken).table[taken.length + k]?).map (·.2), past whole taken) = _
  rw [getElem?_table h, ← List.getElem?_map, map_charIndices]

/-- A line feed begins a new line. -/
theorem past_newline (whole taken : List Char) :
    past whole (taken ++ ['\n']) =
      { past whole taken with
        index := taken.length + 1, line := lineAfter taken + 1, column := 1 } := by
  unfold past
  simp [lineAfter, columnAfter, Nat.add_assoc]

/-- Any other character is one more on its line. -/
theorem past_other (whole taken : List Char) (hc : c ≠ '\n') :
    past whole (taken ++ [c]) =
      { past whole taken with index := taken.length + 1, column := columnAfter taken + 1 } := by
  unfold past
  simp [lineAfter, columnAfter, hc, Nat.add_comm]

/-- A step forward counts the index and the line or the column, none of which leaves
    its word. -/
theorem run_advance (h : Splits whole taken (c :: cs)) :
    advance.run (past whole taken) = .ok (some c, past whole (taken ++ [c])) := by
  -- Each character has a byte, so the offset bounds the index, the line and the column.
  have hsize : byteSize taken + 1 < 2 ^ 32 - 1 := by
    have hnext := h.next.byteSize_lt
    have hpos := c.utf8Size_pos
    rw [byteSize_append, byteSize_singleton] at hnext
    omega
  have hlength := length_le_byteSize taken
  have hindex : (past whole taken).index + 1 < 2 ^ 64 := by
    change taken.length + 1 < 2 ^ 64
    omega
  unfold advance
  rw [run_bind_ok (run_peek? h (by decide))]
  dsimp only [List.getElem?_cons_zero]
  rw [run_bind_ok rfl, run_bind_ok (run_check (Checked.word_eq hindex))]
  by_cases hc : c = '\n'
  · have hline : (past whole taken).line + 1 < 2 ^ 32 := by
      change lineAfter taken + 1 < 2 ^ 32
      have hle := lineAfter_le taken
      omega
    rw [if_pos hc, run_bind_ok (run_check (Checked.halfWord_eq hline)), run_bind_ok rfl, hc,
      past_newline]
    rfl
  · have hcolumn : (past whole taken).column + 1 < 2 ^ 32 := by
      change columnAfter taken + 1 < 2 ^ 32
      have hle := columnAfter_le taken
      omega
    rw [if_neg hc, run_bind_ok (run_check (Checked.halfWord_eq hcolumn)), run_bind_ok rfl,
      past_other whole taken hc]
    rfl

theorem run_advance_end (h : Splits whole taken []) :
    advance.run (past whole taken) = .ok (none, past whole taken) := by
  unfold advance
  rw [run_bind_ok (run_peek? h (by decide))]
  rfl

theorem run_advanceBy (count : Nat) (h : Splits whole taken (text ++ rest))
    (hcount : count = text.length) :
    (advanceBy count).run (past whole taken) = .ok ((), past whole (taken ++ text)) := by
  subst hcount
  induction text generalizing taken with
  | nil =>
    rw [List.append_nil]
    rfl
  | cons c text ih =>
    rw [List.length_cons, advanceBy, run_bind_ok (run_advance h), ih h.next,
      List.append_assoc, List.singleton_append]

theorem head?_ne_some (hother : ∀ rest, cs = c :: rest → False) : ¬ cs.head? = some c := by
  intro hhead
  obtain ⟨rest, hcs⟩ := List.head?_eq_some_iff.1 hhead
  exact hother rest hcs

/-- A look at the next character, and then what depends on it. -/
theorem run_bind_first {α : Type} (h : Splits whole taken (c :: cs)) {f : Option Char → Scanning α} :
    (peek? 0 >>= f).run (past whole taken) = (f (some c)).run (past whole taken) :=
  run_bind_ok (run_peek? h (by decide))

theorem run_bind_first_end {α : Type} (h : Splits whole taken []) {f : Option Char → Scanning α} :
    (peek? 0 >>= f).run (past whole taken) = (f none).run (past whole taken) :=
  run_bind_ok (run_peek? h (by decide))

theorem run_bind_head {α : Type} (h : Splits whole taken unread) {f : Option Char → Scanning α} :
    (peek? 0 >>= f).run (past whole taken) = (f unread.head?).run (past whole taken) := by
  rw [List.head?_eq_getElem?]
  exact run_bind_ok (run_peek? h (by decide))

/-- A look at the character behind the next one. -/
theorem run_bind_second {α : Type} (h : Splits whole taken (c :: cs)) {f : Option Char → Scanning α} :
    (peek? 1 >>= f).run (past whole taken) = (f cs.head?).run (past whole taken) := by
  rw [run_bind_ok (run_peek? h (by decide)), List.getElem?_cons_succ, ← List.head?_eq_getElem?]

theorem run_mark (h : Splits whole taken unread) :
    mark.run (past whole taken) = .ok (Position.start.past taken, past whole taken) := by
  rw [← position_past h]
  rfl

/-- The offset is that of a character, so the text from there on can be looked at. -/
theorem run_isAhead (h : Splits whole taken unread) (text : List Char) :
    (isAhead text).run (past whole taken) = .ok (text.isPrefixOf unread, past whole taken) := by
  have hrest : Checked.textFrom (ε := LexError) (past whole taken).offset
      (past whole taken).source = .ok unread := by
    rw [offset_past h, show (past whole taken).source = whole from rfl, ← h.source]
    exact textFrom_byteSize taken unread
  unfold isAhead
  rw [run_bind_ok rfl, run_bind_ok (run_check hrest)]
  rfl

theorem run_spanFrom (hm : Splits whole taken unread) (h : Splits whole text rest) :
    (spanFrom (Position.start.past taken)).run (past whole text) =
      .ok ((Position.start.past taken).spanTo (Position.start.past text), past whole text) := by
  have hstart : (Position.start.past taken).offset < 2 ^ 32 := by
    have hsize := hm.byteSize_lt
    rw [Position.past_start]
    change byteSize taken < 2 ^ 32
    omega
  have hstop : (past whole text).offset < 2 ^ 32 := by
    have hsize := h.byteSize_lt
    rw [offset_past h]
    omega
  unfold spanFrom
  rw [run_bind_ok (run_check (Checked.narrow_eq hstart)), run_bind_ok rfl,
    run_bind_ok (run_check (Checked.narrow_eq hstop)), offset_past h, Position.past_start,
    Position.past_start]
  rfl

theorem run_token (hm : Splits whole taken unread) (h : Splits whole text rest)
    (kind : TokenKind) :
    (token kind (Position.start.past taken)).run (past whole text) =
      .ok (⟨kind, (Position.start.past taken).spanTo (Position.start.past text)⟩,
        past whole text) := by
  unfold token
  rw [run_bind_ok (run_spanFrom hm h)]
  rfl

/-- Reports blame the stretch that the readers blame. -/
theorem run_failFrom {α : Type} (hm : Splits whole taken unread) (h : Splits whole text rest)
    (cause : LexCause) :
    (failFrom (α := α) (Position.start.past taken) cause).run (past whole text) =
      .error (.report (.ofFault whole ⟨cause, unread, rest⟩)) := by
  have hbefore : ∀ {front back : List Char}, Splits whole front back →
      whole.take (whole.length - back.length) = front := by
    intro front back hsplit
    have hlength := hsplit.length_eq
    rw [show whole.length - back.length = front.length by omega, ← hsplit.source,
      List.take_left]
  unfold failFrom LexError.ofFault
  rw [run_bind_ok (run_spanFrom hm h)]
  dsimp only
  rw [hbefore hm, hbefore h]
  rfl

theorem run_failHere {α : Type} (h : Splits whole taken unread) (cause : LexCause) :
    (failHere (α := α) cause).run (past whole taken) =
      .error (.report (.ofFault whole (.here cause unread))) := by
  unfold failHere
  rw [run_bind_ok (run_mark h), run_failFrom h h]
  rfl

/-- A class is read up to the first character that is not in it. -/
theorem run_takeWhile (h : Splits whole taken unread) (p : Char → Bool) :
    (takeWhile p).run (past whole taken) =
      .ok (unread.takeWhile p, past whole (taken ++ unread.takeWhile p)) := by
  -- The loop goes on behind what it has read before.
  suffices hloop : ∀ text, (loop left (classRound p) text).run (past whole taken) =
      .ok (text ++ unread.takeWhile p, past whole (taken ++ unread.takeWhile p)) from hloop []
  intro text
  induction unread generalizing taken text with
  | nil =>
    have hround : (classRound p text).run (past whole taken) =
        .ok (.done text, past whole taken) := by
      unfold classRound
      rw [run_bind_ok (run_peek? h (by decide))]
      rfl
    rw [loop_done hround]
    simp
  | cons c cs ih =>
    by_cases hp : p c = true
    · have hround : (classRound p text).run (past whole taken) =
          .ok (.again (text ++ [c]), past whole (taken ++ [c])) := by
        unfold classRound
        rw [run_bind_ok (run_peek? h (by decide))]
        dsimp only [List.getElem?_cons_zero]
        rw [if_pos hp, run_bind_ok (run_advance h)]
        rfl
      rw [loop_again hround (left_lt_next h), ih h.next, List.takeWhile_cons_of_pos hp]
      simp
    · have hround : (classRound p text).run (past whole taken) =
          .ok (.done text, past whole taken) := by
        unfold classRound
        rw [run_bind_ok (run_peek? h (by decide))]
        dsimp only [List.getElem?_cons_zero]
        rw [if_neg hp]
        rfl
      rw [loop_done hround, List.takeWhile_cons_of_neg hp]
      simp

end Scanner

end Places

end ElmIntake
