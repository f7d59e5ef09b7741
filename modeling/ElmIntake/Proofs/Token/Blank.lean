import ElmIntake.Token.Lossless

/-! # What stands between tokens

    Blanks and comments as grammars of their own, which do not mention how they
    are read. Whatever is read and is no token belongs to them. -/

namespace ElmIntake

/-! ## Block comments -/

/-- Are two characters in a row a mark that opens or closes a comment? -/
def IsCommentMark (c d : Char) : Prop := c = '{' ∧ d = '-' ∨ c = '-' ∧ d = '}'

/-- What can stand between the two marks of a block comment. Comments in there
    are closed in there. A character that is not part of a comment in there makes
    no mark with the next one, which for the last character is the first one of
    the closing mark. -/
inductive Nested : List Char → Prop where
  | done : Nested []
  | char {c : Char} {rest : List Char} :
      ¬ IsCommentMark c (rest.headD '-') → Nested rest → Nested (c :: rest)
  | comment {inner rest : List Char} :
      Nested inner → Nested rest → Nested ('{' :: '-' :: inner ++ '-' :: '}' :: rest)

/-- What can stand inside `depth` further comments before the last one of them
    ends. -/
def NestedIn : (depth : Nat) → List Char → Prop
  | 0, text => Nested text
  | depth + 1, text =>
    ∃ inner rest, text = inner ++ '-' :: '}' :: rest ∧ Nested inner ∧ NestedIn depth rest

namespace NestedIn

variable {depth : Nat} {text : List Char}

theorem char {c : Char} (hmark : ¬ IsCommentMark c (text.headD '-')) (h : NestedIn depth text) :
    NestedIn depth (c :: text) := by
  cases depth with
  | zero => exact .char hmark h
  | succ depth =>
    obtain ⟨inner, rest, rfl, hinner, hrest⟩ := h
    refine ⟨c :: inner, rest, rfl, .char ?_ hinner, hrest⟩
    cases inner <;> exact hmark

theorem comment {inner : List Char} (hinner : Nested inner) (h : NestedIn depth text) :
    NestedIn depth ('{' :: '-' :: inner ++ '-' :: '}' :: text) := by
  cases depth with
  | zero => exact .comment hinner h
  | succ depth =>
    obtain ⟨inner', rest, rfl, hinner', hrest⟩ := h
    exact ⟨'{' :: '-' :: inner ++ '-' :: '}' :: inner', rest, by simp, .comment hinner hinner',
      hrest⟩

end NestedIn

/-- What is read of a comment is well nested. The induction is on the reader,
    with the depth that it is at. -/
theorem readNested_nested {seen cs : List Char} {depth : Nat} {cut : Cut Unit}
    (h : readNested seen depth cs = some cut) :
    ∃ text, cut.text = seen.reverse ++ text ∧ NestedIn depth text := by
  fun_induction readNested seen depth cs with
  | case1 seen depth cs ih =>
    -- A further comment opens, and takes what the text before its end is.
    obtain ⟨text, htext, inner, rest, rfl, hinner, hrest⟩ := ih h
    exact ⟨'{' :: '-' :: inner ++ '-' :: '}' :: rest, by simp [htext], .comment hinner hrest⟩
  | case2 seen rest =>
    cases h
    exact ⟨[], by simp, .done⟩
  | case3 seen depth cs ih =>
    -- The innermost comment ends here, with nothing left in it.
    obtain ⟨text, htext, hnested⟩ := ih h
    exact ⟨'-' :: '}' :: text, by simp [htext], [], text, rfl, .done, hnested⟩
  | case4 seen depth c cs hopen hend hclose ih =>
    obtain ⟨text, htext, hnested⟩ := ih h
    have hsource := readNested_source h
    rw [htext] at hsource
    have hcs : text ++ '-' :: '}' :: cut.rest = cs := by simpa using hsource
    refine ⟨c :: text, by simp [htext], hnested.char ?_⟩
    -- What follows the character in the source is what follows it in the comment,
    -- so a mark here would have been read as one.
    rintro (⟨rfl, hnext⟩ | ⟨rfl, hnext⟩)
    · cases text with
      | nil => exact hopen _ rfl hcs.symm
      | cons d text =>
        obtain rfl : d = '-' := hnext
        exact hopen _ rfl hcs.symm
    · cases text with
      | nil => cases hnext
      | cons d text =>
        obtain rfl : d = '}' := hnext
        cases depth with
        | zero => exact hend _ rfl rfl hcs.symm
        | succ depth => exact hclose _ _ rfl rfl hcs.symm
  | case5 => cases h

/-! ## Gaps -/

/-- What can stand between two tokens, before the first or after the last one:
    blanks, line comments and block comments that are no documentation. A line
    comment goes on up to a line feed or the end of the source, and `following`
    is the source that follows the gap. -/
inductive Blank (following : List Char) : List Char → Prop where
  | done : Blank following []
  | space {c : Char} {rest : List Char} :
      c = ' ' ∨ c = '\n' ∨ c = '\r' → Blank following rest → Blank following (c :: rest)
  | line {text rest : List Char} :
      '\n' ∉ text → (∀ c ∈ (rest ++ following).head?, c = '\n') → Blank following rest →
      Blank following ('-' :: '-' :: text ++ rest)
  | block {inner rest : List Char} :
      Nested inner → inner.head? ≠ some '|' → Blank following rest →
      Blank following ('{' :: '-' :: inner ++ '-' :: '}' :: rest)

/-- A piece that is no token makes a gap longer. -/
theorem Blank.of_readPiece {c : Char} {cs gap following : List Char}
    {cut : Cut (Option TokenKind)} (h : readPiece c cs = .ok cut) (hnone : cut.value = none)
    (hrest : cut.rest = gap ++ following) (hgap : Blank following gap) :
    Blank following (cut.text ++ gap) := by
  unfold readPiece at h
  split at h
  · next hblank =>
    cases h
    exact .space hblank hgap
  -- All other pieces without a token are comments.
  split at h
  · cases h
  split at h
  · next cs _ _ =>
    cases h
    refine .line (fun hmem => ?_) (fun d hd => ?_) hgap
    · simpa using List.all_eq_true.1 List.all_takeWhile _ hmem
    · have hstop := List.head?_dropWhile_not (· != '\n') cs
      rw [← hrest, Option.mem_def] at hd
      rw [hd] at hstop
      simpa using hstop
  · unfold readDocComment at h
    split at h <;> cases h
    cases hnone
  · next cs hdoc _ _ =>
    unfold readPlainComment at h
    split at h
    · next inner hinner =>
      cases h
      obtain ⟨text, htext, hnested⟩ := readNested_nested hinner
      have hsource := readNested_source hinner
      have heq : inner.text = text := by simpa using htext
      have hhead : inner.text.head? ≠ some '|' := by
        intro hhead
        obtain ⟨rest, hinnerText⟩ := List.head?_eq_some_iff.1 hhead
        rw [hinnerText] at hsource
        exact hdoc _ hsource.symm
      simpa using Blank.block (heq ▸ hnested) hhead hgap
    · cases h
  · cases htoken : readToken c cs with
    | error fault => simp [htoken, Except.map] at h
    | ok token =>
      simp only [htoken, Except.map] at h
      cases h
      cases hnone

end ElmIntake
