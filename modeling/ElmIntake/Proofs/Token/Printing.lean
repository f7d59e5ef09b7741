import ElmIntake.Proofs.Token.Lines
import Mathlib.Data.List.TakeWhile

/-! # Printed parts are read back

    A source is printed part by part: words, names, marks, and whole stretches of
    source such as types, each of which is cut into tokens when it stands alone. With
    blanks between the parts, or none next to a parenthesis or a comma, the whole is
    cut into the tokens of all parts. -/

namespace ElmIntake

/-! ## Parts -/

/-- Characters that part tokens and belong to none. -/
def blanks : List Char := [' ', '\n', '\r']

/-- Is a piece a token, or else a single blank? Comments are neither. -/
def Piece.isPlain (piece : Piece) : Bool :=
  piece.kind.isSome || blanks.any fun c => piece.text == [c]

/-- A stretch of source, and the tokens that it is made of. -/
structure Part where
  text : String
  kinds : List TokenKind
  deriving Repr, DecidableEq

namespace Part

/-- A single token, as it is printed. -/
def ofKind (kind : TokenKind) : Part := ⟨kind.text, [kind]⟩

/-- Is the text of the part, when it stands alone, cut into the tokens of the part,
    with blanks between them but without comments? -/
def lexes (part : Part) : Bool :=
  match cutPieces [] part.text.toList with
  | .ok pieces => pieces.filterMap (·.kind) == part.kinds && pieces.all Piece.isPlain
  | .error _ => false

/-- May a text follow the part directly? Only with a blank, unless there is a
    parenthesis or a comma on either side. -/
def mayPrecede (part : Part) (rest : List Char) : Bool :=
  rest.head?.all stops.contains || ["(", ")", ","].contains part.text

end Part

/-- The sources that some parts are printed as: one part after the other, with
    blanks between them and around. -/
inductive Prints : List Part → List Char → Prop where
  | done {gap : List Char} : (∀ c ∈ gap, c ∈ blanks) → Prints [] gap
  | part {gap rest : List Char} {part : Part} {parts : List Part} :
      (∀ c ∈ gap, c ∈ blanks) → part.mayPrecede rest = true → Prints parts rest →
      Prints (part :: parts) (gap ++ (part.text.toList ++ rest))

/-- Finds the parts in a source from left to right. -/
def isPrinted : List Part → List Char → Bool
  | [], cs => cs.all (· ∈ blanks)
  | part :: parts, cs =>
    let rest := cs.dropWhile (· ∈ blanks)
    let behind := rest.drop part.text.toList.length
    part.text.toList.isPrefixOf rest && part.mayPrecede behind && isPrinted parts behind

/-- Where the parts are found, the source is printed as them. -/
theorem prints_of_isPrinted {parts : List Part} {cs : List Char} (h : isPrinted parts cs = true) :
    Prints parts cs := by
  induction parts generalizing cs with
  | nil =>
    refine .done fun c hc => ?_
    simpa using List.all_eq_true.1 h c hc
  | cons part parts ih =>
    unfold isPrinted at h
    simp only [Bool.and_eq_true] at h
    obtain ⟨⟨htext, hfollow⟩, hrest⟩ := h
    obtain ⟨behind, hbehind⟩ := List.isPrefixOf_iff_prefix.1 htext
    rw [← hbehind, List.drop_left] at hfollow hrest
    have hgap : ∀ c ∈ cs.takeWhile (· ∈ blanks), c ∈ blanks := fun c hc => by
      simpa using List.mem_takeWhile_imp hc
    have hprints := Prints.part hgap hfollow (ih hrest)
    rwa [hbehind, List.takeWhile_append_dropWhile] at hprints

/-! ## Cutting what is printed -/

section

variable {cs more gap : List Char} {pieces others : List Piece} {part : Part} {parts : List Part}

theorem Part.exists_cuts (h : part.lexes = true) :
    ∃ pieces, Cuts part.text.toList pieces ∧ pieces.filterMap (·.kind) = part.kinds ∧
      ∀ piece ∈ pieces, piece.isPlain = true := by
  unfold lexes at h
  cases hpieces : cutPieces [] part.text.toList with
  | error fault =>
    rw [hpieces] at h
    cases h
  | ok pieces =>
    rw [hpieces] at h
    simp only [Bool.and_eq_true, beq_iff_eq, List.all_eq_true] at h
    obtain ⟨new, hnew, hcuts⟩ := cuts_of_cutPieces hpieces
    rw [List.reverse_nil, List.nil_append] at hnew
    exact ⟨pieces, hnew ▸ hcuts, h.1, h.2⟩

theorem Part.lexes_of_cuts (h : Cuts part.text.toList pieces)
    (hkinds : pieces.filterMap (·.kind) = part.kinds)
    (hplain : ∀ piece ∈ pieces, piece.isPlain = true) : part.lexes = true := by
  unfold lexes
  rw [cutPieces_of_cuts h []]
  simp only [List.reverse_nil, List.nil_append, Bool.and_eq_true, beq_iff_eq, List.all_eq_true]
  exact ⟨hkinds, hplain⟩

theorem Part.of_mayPrecede (h : part.mayPrecede cs = true) :
    (∀ c ∈ cs.head?, c ∈ stops) ∨ part.text ∈ ["(", ")", ","] := by
  rcases Bool.or_eq_true_iff.1 h with hstop | hmark
  · refine .inl fun c hc => ?_
    rw [Option.mem_def.1 hc] at hstop
    exact List.contains_iff_mem.1 hstop
  · exact .inr (List.contains_iff_mem.1 hmark)

theorem readPiece_blank {c : Char} (hc : c ∈ blanks) (cs : List Char) :
    readPiece c cs = .ok ⟨none, [c], cs⟩ := by
  have hblank : c = ' ' ∨ c = '\n' ∨ c = '\r' := by simpa [blanks] using hc
  unfold readPiece
  rw [if_pos hblank]

theorem Cuts.after_gap (hgap : ∀ c ∈ gap, c ∈ blanks) (h : Cuts cs pieces) :
    Cuts (gap ++ cs) (gap.map (fun c => ⟨none, [c]⟩) ++ pieces) := by
  induction gap with
  | nil => exact h
  | cons c gap ih =>
    obtain ⟨hc, hgap⟩ := List.forall_mem_cons.1 hgap
    have hcuts := Cuts.piece (readPiece_blank hc (gap ++ cs)) (ih hgap)
    exact hcuts

/-- A piece that is a token or a blank is no line comment. -/
theorem not_line_of_isPlain {c : Char} {cut : Cut (Option TokenKind)}
    (h : readPiece c cs = .ok cut) (hplain : Piece.isPlain ⟨cut.value, cut.text⟩ = true) :
    ¬ (c = '-' ∧ cs.head? = some '-') := by
  rintro ⟨rfl, hhead⟩
  obtain ⟨rest, rfl⟩ := List.head?_eq_some_iff.1 hhead
  cases h
  simp [Piece.isPlain, blanks] at hplain

/-- The pieces of a source in front of a stop. -/
theorem Cuts.before {d : Char} (h : Cuts cs pieces)
    (hplain : ∀ piece ∈ pieces, piece.isPlain = true) (hd : d ∈ stops)
    (hmore : Cuts (d :: more) others) :
    Cuts (cs ++ d :: more) (pieces ++ others) := by
  induction h with
  | done => exact hmore
  | @piece c cs cut pieces hpiece _ ih =>
    obtain ⟨hfirst, hrest⟩ := List.forall_mem_cons.1 hplain
    have hline := not_line_of_isPlain hpiece hfirst
    have hcut := readPiece_before hpiece hd (.inr hline) more
    have hcuts := Cuts.piece hcut (ih hrest)
    exact hcuts

/-- Parentheses and commas are tokens whatever follows them. -/
theorem readPiece_mark {c : Char} {kind : TokenKind}
    (h : (c, kind) ∈ [('(', .opening .paren), (')', .closing .paren), (',', .comma)])
    (cs : List Char) : readPiece c cs = .ok ⟨some kind, [c], cs⟩ := by
  simp only [List.mem_cons, Prod.mk.injEq, List.not_mem_nil, or_false] at h
  rcases h with ⟨rfl, rfl⟩ | ⟨rfl, rfl⟩ | ⟨rfl, rfl⟩
  all_goals rfl

theorem Cuts.after_mark (hmark : part.text ∈ ["(", ")", ","])
    (h : Cuts part.text.toList pieces) (hmore : Cuts more others) :
    Cuts (part.text.toList ++ more) (pieces ++ others) := by
  have hread : ∃ c kind, part.text.toList = [c] ∧
      ∀ cs, readPiece c cs = .ok ⟨some kind, [c], cs⟩ := by
    simp only [List.mem_cons, List.not_mem_nil, or_false] at hmark
    rcases hmark with htext | htext | htext
    all_goals rw [htext]
    · exact ⟨'(', .opening .paren, rfl, readPiece_mark (by decide)⟩
    · exact ⟨')', .closing .paren, rfl, readPiece_mark (by decide)⟩
    · exact ⟨',', .comma, rfl, readPiece_mark (by decide)⟩
  obtain ⟨c, kind, htext, hread⟩ := hread
  rw [htext] at h ⊢
  cases h with
  | piece hpiece hrest =>
    rw [hread] at hpiece
    cases hpiece
    cases hrest
    have hcuts := Cuts.piece (hread more) hmore
    exact hcuts

/-- **What is printed is read back**: the whole is cut into the tokens of the parts. -/
theorem Prints.cuts {text : List Char} (h : Prints parts text)
    (hparts : ∀ part ∈ parts, part.lexes = true) :
    ∃ pieces, Cuts text pieces ∧ pieces.filterMap (·.kind) = parts.flatMap (·.kinds) := by
  have hblank : ∀ gap : List Char,
      (gap.map fun c => (⟨none, [c]⟩ : Piece)).filterMap (·.kind) = [] := by
    intro gap
    simp
  induction h with
  | @done gap hgap =>
    have hcuts := Cuts.after_gap hgap .done
    rw [List.append_nil] at hcuts
    exact ⟨_, by simpa using hcuts, hblank gap⟩
  | @part gap rest part parts hgap hfollow _ ih =>
    obtain ⟨hpart, hparts⟩ := List.forall_mem_cons.1 hparts
    obtain ⟨pieces, hcuts, hkinds, hplain⟩ := Part.exists_cuts hpart
    obtain ⟨others, hothers, hrest⟩ := ih hparts
    -- A part ends before a gap or a mark, and what is behind it is cut by itself.
    have hboth : Cuts (part.text.toList ++ rest) (pieces ++ others) := by
      rcases Part.of_mayPrecede hfollow with hstop | hmark
      · cases rest with
        | nil =>
          cases hothers
          simpa using hcuts
        | cons d more => exact hcuts.before hplain (hstop d rfl) hothers
      · exact hcuts.after_mark hmark hothers
    refine ⟨_, hboth.after_gap hgap, ?_⟩
    rw [List.filterMap_append, hblank, List.nil_append, List.filterMap_append, hkinds, hrest,
      List.flatMap_cons]

end

/-- The kinds of the tokens of pieces, and then the end. -/
theorem map_kind_placePieces (p : Position) (pieces : List Piece) :
    (placePieces p pieces).map (·.kind) = pieces.filterMap (·.kind) ++ [.eof] := by
  induction pieces generalizing p with
  | nil => rfl
  | cons piece pieces ih =>
    unfold placePieces
    cases hkind : piece.kind with
    | none =>
      rw [List.filterMap_cons_none hkind]
      exact ih _
    | some kind =>
      rw [List.filterMap_cons_some hkind]
      exact congrArg (kind :: ·) (ih _)

/-- **The tokens of a printed source.** -/
theorem Token.exists_ofSource_of_prints {source : String} {parts : List Part}
    (h : Prints parts source.toList) (hparts : ∀ part ∈ parts, part.lexes = true) :
    ∃ tokens, ofSource source = .ok tokens ∧
      tokens.map (·.kind) = parts.flatMap (·.kinds) ++ [.eof] := by
  obtain ⟨pieces, hcuts, hkinds⟩ := h.cuts hparts
  refine ⟨placePieces .start pieces, ?_, ?_⟩
  · unfold ofSource
    dsimp only
    rw [cutPieces_of_cuts hcuts []]
    rfl
  · rw [map_kind_placePieces, hkinds]

end ElmIntake
