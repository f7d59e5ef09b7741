import ElmIntake.Proofs.Token.Locality
import ElmIntake.Proofs.Token.Tiling
import Mathlib.Data.List.Forall2

/-! # Lines are read one after the other

    A source whose first lines are a good source, and whose other lines are one,
    has the tokens of both: those of the lines above where they are, and those of
    the lines below moved down.

    The pieces of the two sources, with the line feed between them, are the pieces
    of the whole; and a position that is moved down before it advances is moved
    down afterwards. -/

namespace ElmIntake

/-! ## Pieces -/

theorem Cuts.flatMap_text {cs : List Char} {pieces : List Piece} (h : Cuts cs pieces) :
    pieces.flatMap (·.text) = cs := by
  induction h with
  | done => rfl
  | piece hpiece _ ih =>
    rw [List.flatMap_cons, ih]
    exact (readPiece_takes hpiece).source

/-- The pieces of lines above, the line feed, and the pieces of those below. -/
theorem Cuts.above {cs below : List Char} {pieces more : List Piece} (h : Cuts cs pieces)
    (hbelow : Cuts below more) :
    Cuts (cs ++ '\n' :: below) (pieces ++ ⟨none, ['\n']⟩ :: more) := by
  induction h with
  | done =>
    have hfeed : readPiece '\n' below = .ok ⟨none, ['\n'], below⟩ := by
      unfold readPiece
      rw [if_pos (by decide)]
    exact .piece hfeed hbelow
  | @piece c cs cut pieces hpiece _ ih =>
    have hcut := readPiece_before hpiece (by decide : '\n' ∈ stops) (.inl rfl) below
    have hcuts := Cuts.piece hcut ih
    exact hcuts

theorem cutPieces_of_cuts {cs : List Char} {new : List Piece} (h : Cuts cs new)
    (done : List Piece) : cutPieces done cs = .ok (done.reverse ++ new) := by
  induction h generalizing done with
  | done => simp [cutPieces]
  | @piece c cs cut pieces hpiece _ ih =>
    rw [cutPieces]
    split
    · next fault hfault =>
      rw [hpiece] at hfault
      cases hfault
    · next cut' hcut =>
      rw [hpiece] at hcut
      cases hcut
      rw [ih]
      simp

theorem placePieces_ne_nil (p : Position) (pieces : List Piece) : placePieces p pieces ≠ [] := by
  induction pieces generalizing p with
  | nil => exact List.cons_ne_nil _ _
  | cons piece pieces ih =>
    unfold placePieces
    dsimp only
    split
    · exact List.cons_ne_nil _ _
    · exact ih _

/-- Pieces with more behind them have the places that they have alone. -/
theorem placePieces_append (p : Position) (pieces more : List Piece) :
    placePieces p (pieces ++ more) =
      (placePieces p pieces).dropLast ++ placePieces (p.past (pieces.flatMap (·.text))) more := by
  induction pieces generalizing p with
  | nil => rfl
  | cons piece pieces ih =>
    rw [List.cons_append, List.flatMap_cons, Position.past_append, placePieces, placePieces]
    split
    · rw [ih, List.dropLast_cons_of_ne_nil (placePieces_ne_nil _ _), List.cons_append]
    · exact ih _

/-! ## Places -/

/-- The position when the lines of `above` stand above it. -/
def Position.below (above : List Char) (p : Position) : Position :=
  ⟨p.offset + (byteSize above + 1), p.line + (above.count '\n' + 1), p.column⟩

/-- The span when the lines of `above` stand above it. -/
def Span.below (above : List Char) (s : Span) : Span where
  start := s.start + (byteSize above + 1).toUInt32
  stop := s.stop + (byteSize above + 1).toUInt32
  line := s.line + (above.count '\n' + 1).toUInt32
  column := s.column

/-- The token when the lines of `above` stand above it. -/
def Token.below (above : List Char) (t : Token) : Token := { t with span := t.span.below above }

namespace Position

variable (above : List Char) (p q : Position)

theorem below_advance (c : Char) : (p.below above).advance c = (p.advance c).below above := by
  unfold advance
  split
  · simp only [below]
    congr 1 <;> omega
  · simp only [below]
    congr 1
    omega

theorem below_past (text : List Char) : (p.below above).past text = (p.past text).below above := by
  induction text generalizing p with
  | nil => rfl
  | cons c text ih => rw [past_cons, past_cons, below_advance, ih]

theorem below_spanTo : (p.below above).spanTo (q.below above) = (p.spanTo q).below above := by
  simp [spanTo, below, Span.below]

/-- Behind the lines above and their line feed stands the start, moved down. -/
theorem past_above : start.past (above ++ ['\n']) = start.below above := by
  have hfeed : '\n'.utf8Size = 1 := rfl
  rw [past_append, past_start, past_cons, past_nil, advance, if_pos rfl, hfeed]
  simp only [below, start, lineAfter, Position.mk.injEq]
  refine ⟨?_, ?_, trivial⟩
  · omega
  · omega

end Position

theorem placePieces_below (above : List Char) (p : Position) (pieces : List Piece) :
    placePieces (p.below above) pieces = (placePieces p pieces).map (Token.below above) := by
  induction pieces generalizing p with
  | nil => simp [placePieces, Token.below, Position.below_spanTo]
  | cons piece pieces ih =>
    unfold placePieces
    dsimp only
    rw [Position.below_past, Position.below_spanTo, ih]
    split <;> rfl

/-- Is `t'` the token `t`, moved down below the lines `above` and a line feed? In
    numbers without an upper bound, so that nothing overflows. -/
structure Token.IsBelow (above : List Char) (t t' : Token) : Prop where
  kind : t'.kind = t.kind
  start : t'.span.start.toNat = t.span.start.toNat + (byteSize above + 1)
  stop : t'.span.stop.toNat = t.span.stop.toNat + (byteSize above + 1)
  line : t'.span.line.toNat = t.span.line.toNat + (above.count '\n' + 1)
  column : t'.span.column = t.span.column

theorem toNat_add_toUInt32 {w : UInt32} {n : Nat} (h : w.toNat + n < 2 ^ 32) :
    (w + n.toUInt32).toNat = w.toNat + n := by
  have hn : n.toUInt32.toNat = n := Nat.mod_eq_of_lt (by omega)
  rw [UInt32.toNat_add, hn, Nat.mod_eq_of_lt h]

/-- In sources that are not too long no number overflows. -/
theorem Token.isBelow_below {above before text : List Char} {t : Token}
    (hat : t.span.IsAt before text)
    (hsize : byteSize above + 1 + byteSize (before ++ text) < 2 ^ 32 - 1) :
    t.IsBelow above (t.below above) := by
  have hline := lineAfter_le before
  have hfeeds : above.count '\n' ≤ byteSize above :=
    Nat.le_trans List.count_le_length (length_le_byteSize above)
  have hbefore : byteSize before ≤ byteSize (before ++ text) := by simp
  constructor
  case kind => rfl
  case start => exact toNat_add_toUInt32 (by rw [hat.start]; omega)
  case stop => exact toNat_add_toUInt32 (by rw [hat.stop]; omega)
  case line => exact toNat_add_toUInt32 (by rw [hat.line]; omega)
  case column => rfl

/-- **Lines are read one after the other.** If what stands above a line feed can be
    cut into tokens, and what stands below as well, then the whole can: into the
    tokens above, without their end, and those below, each one moved down. -/
theorem Token.ofSource_lines {above below : String} {upper lower : List Token}
    (hsize : (Text.toUtf8 (above ++ "\n" ++ below)).length < 2 ^ 32 - 1)
    (habove : ofSource above = .ok upper) (hbelow : ofSource below = .ok lower) :
    ∃ stream last lower', upper = stream ++ [last] ∧ last.kind = .eof ∧
      List.Forall₂ (IsBelow above.toList) lower lower' ∧
      ofSource (above ++ "\n" ++ below) = .ok (stream ++ lower') := by
  have hsource : (above ++ "\n" ++ below).toList = above.toList ++ '\n' :: below.toList := by
    simp
  have hbytes : byteSize above.toList + 1 + byteSize below.toList < 2 ^ 32 - 1 := by
    change byteSize (above ++ "\n" ++ below).toList < 2 ^ 32 - 1 at hsize
    have hfeed : byteSize ['\n'] = 1 := rfl
    rw [hsource, ← List.singleton_append, byteSize_append, byteSize_append, hfeed] at hsize
    omega
  obtain ⟨pieces, hcuts, rfl⟩ := exists_cuts habove
  obtain ⟨more, hmore, rfl⟩ := exists_cuts hbelow
  obtain ⟨stream, last, hstream, hlast, -⟩ := hcuts.exists_stream .start
  refine ⟨stream, last, (placePieces .start more).map (Token.below above.toList), hstream, hlast,
    ?_, ?_⟩
  · -- Every token below stands somewhere in the lines below.
    rw [List.forall₂_map_right_iff, List.forall₂_same]
    intro t ht
    have htiling : Tiling [] below.toList (placePieces .start more) :=
      .of_cuts hmore [] (by rw [List.nil_append]; omega)
    obtain ⟨front, text, after, hsplit, hat, -⟩ := htiling.exists_isAt ht
    refine isBelow_below hat ?_
    rw [hsplit, byteSize_append] at hbytes
    rw [List.nil_append]
    omega
  · have hwhole := cutPieces_of_cuts (hcuts.above hmore) []
    unfold ofSource
    rw [hsource]
    dsimp only
    rw [hwhole]
    dsimp only
    have hplaced : placePieces .start (pieces ++ ⟨none, ['\n']⟩ :: more) =
        stream ++ (placePieces .start more).map (Token.below above.toList) := by
      rw [placePieces_append, hstream, List.dropLast_concat, hcuts.flatMap_text]
      rw [← placePieces_below, ← Position.past_above, Position.past_append]
      rfl
    rw [List.reverse_nil, List.nil_append, hplaced]

/-- The line feed parts a name from the dot above it. -/
theorem Token.ofSource_lines_dotted :
    ∃ upper lower stream last lower', ofSource "x = \x7b- é -\x7d List." = .ok upper ∧
      ofSource "map\n  y" = .ok lower ∧ upper = stream ++ [last] ∧ last.kind = .eof ∧
      upper.map (·.kind) = [.lowerName "x", .equals, .upperName "List", .operator ".", .eof] ∧
      lower.map (·.kind) = [.lowerName "map", .lowerName "y", .eof] ∧
      List.Forall₂ (IsBelow "x = \x7b- é -\x7d List.".toList) lower lower' ∧
      ofSource ("x = \x7b- é -\x7d List." ++ "\n" ++ "map\n  y") = .ok (stream ++ lower') := by
  have hupper : (ofSource "x = \x7b- é -\x7d List.").toOption.map (·.map (·.kind)) =
      some [.lowerName "x", .equals, .upperName "List", .operator ".", .eof] := by decide +kernel
  have hlower : (ofSource "map\n  y").toOption.map (·.map (·.kind)) =
      some [.lowerName "map", .lowerName "y", .eof] := by decide +kernel
  cases habove : ofSource "x = \x7b- é -\x7d List." with
  | error e =>
    rw [habove] at hupper
    cases hupper
  | ok upper =>
    cases hbelow : ofSource "map\n  y" with
    | error e =>
      rw [hbelow] at hlower
      cases hlower
    | ok lower =>
      rw [habove] at hupper
      rw [hbelow] at hlower
      obtain ⟨stream, last, lower', hstream, hlast, hmoved, hwhole⟩ :=
        ofSource_lines (by decide +kernel) habove hbelow
      exact ⟨upper, lower, stream, last, lower', rfl, rfl, hstream, hlast, Option.some.inj hupper,
        Option.some.inj hlower, hmoved, hwhole⟩

end ElmIntake
