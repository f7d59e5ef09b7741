import ElmIntake.Token.Reader

/-! # Readers lose nothing

    The text that a reader takes and the source that it leaves are together the
    source that it was given. Main statement: `readPiece_takes`, by which a piece
    is moreover not empty. -/

namespace ElmIntake

/-! ## Names -/

theorem readDotted_source (upper : Bool) (cs : List Char) : (readDotted upper cs).source = cs := by
  fun_induction readDotted upper cs with
  | case1 upper c cs _ ih =>
    rw [Cut.source_after, ih]
    simp
  | case2 => rfl
  | case3 => rfl

theorem readName_source (cs : List Char) : (readName cs).source = cs := by
  unfold readName
  dsimp only
  split
  · exact List.takeWhile_append_dropWhile
  · have dotted := readDotted_source ((cs.takeWhile isNameChar).head?.any Text.isUppercase)
      (cs.dropWhile isNameChar)
    simp only [Cut.source] at dotted
    simp [Cut.source, Cut.after, dotted]

theorem readName_takes {c : Char} {cs : List Char} (h : isNameChar c = true) :
    (readName (c :: cs)).Takes (c :: cs) := by
  refine ⟨readName_source _, ?_⟩
  unfold readName
  dsimp only
  rw [List.takeWhile_cons_of_pos h]
  split <;> simp [Cut.after]

/-! ## Numbers -/

theorem readFraction_source (cs : List Char) : (readFraction cs).source = cs := by
  unfold readFraction
  split
  · split
    · simp
    · rfl
  · rfl

theorem readExponent_source (cs : List Char) : (readExponent cs).source = cs := by
  fun_cases readExponent cs with
  | case1 => simp
  | case2 => simp
  | _ => rfl

theorem endNumber_cut {digits text rest : List Char} {c : Cut TokenKind}
    (h : endNumber digits text rest = .ok c) : c.text = text ∧ c.rest = rest := by
  unfold endNumber at h
  split at h
  · cases h
  · cases h
    exact ⟨rfl, rfl⟩

theorem readHexNumber_takes {x : Char} {cs : List Char} {c : Cut TokenKind}
    (h : readHexNumber x cs = .ok c) : c.Takes ('0' :: x :: cs) := by
  unfold readHexNumber at h
  dsimp only at h
  split at h
  · cases h
  · obtain ⟨text, rest⟩ := endNumber_cut h
    exact ⟨by simp [Cut.source, text, rest], by simp [text]⟩

theorem readDecimal_takes {d : Char} {cs : List Char} {c : Cut TokenKind}
    (digit : d.isDigit = true) (h : readDecimal (d :: cs) = .ok c) : c.Takes (d :: cs) := by
  unfold readDecimal at h
  dsimp only at h
  obtain ⟨text, rest⟩ := endNumber_cut h
  have fraction := readFraction_source ((d :: cs).dropWhile Char.isDigit)
  have exponent := readExponent_source (readFraction ((d :: cs).dropWhile Char.isDigit)).rest
  unfold Cut.source at fraction exponent
  refine ⟨?_, ?_⟩
  · rw [Cut.source, text, rest, List.append_assoc, List.append_assoc, exponent, fraction,
      List.takeWhile_append_dropWhile]
  · rw [text, List.takeWhile_cons_of_pos digit]
    simp

theorem readNumber_takes {d : Char} {cs : List Char} {c : Cut TokenKind}
    (digit : d.isDigit = true) (h : readNumber (d :: cs) = .ok c) : c.Takes (d :: cs) := by
  unfold readNumber at h
  split at h
  · next eq =>
    rw [eq]
    exact readHexNumber_takes h
  · next eq =>
    rw [eq]
    exact readHexNumber_takes h
  · exact readDecimal_takes digit h

/-! ## Strings and characters -/

theorem readStringBody_source {opening read seen cs : List Char} {triple : Bool}
    {c : Cut TokenKind} (h : readStringBody opening triple read seen cs = .ok c) :
    c.source = seen.reverse ++ cs := by
  fun_induction readStringBody opening triple read seen cs with
  | case1 => cases h
  | case2 read seen cs e eq ih =>
    have := (readEscape_takes eq).source
    rw [ih h, ← this]
    simp [Cut.source]
  | case3 => cases h
  | case4 read seen c cs _ _ quotes =>
    cases h
    obtain ⟨rfl, rest, rfl⟩ := quotes
    simp [Cut.source]
  | case5 read seen c cs _ _ _ ih =>
    rw [ih h]
    simp
  | case6 => cases h
  | case7 =>
    cases h
    simp [Cut.source]
  | case8 read seen c cs _ _ _ _ ih =>
    rw [ih h]
    simp

theorem readStringBody_text {opening read seen cs : List Char} {triple : Bool}
    {c : Cut TokenKind} (h : readStringBody opening triple read seen cs = .ok c) :
    c.text ≠ [] := by
  fun_induction readStringBody opening triple read seen cs with
  | case1 => cases h
  | case2 _ _ _ _ _ ih => exact ih h
  | case3 => cases h
  | case4 =>
    cases h
    simp
  | case5 _ _ _ _ _ _ _ ih => exact ih h
  | case6 => cases h
  | case7 =>
    cases h
    simp
  | case8 _ _ _ _ _ _ _ _ ih => exact ih h

theorem readString_takes {cs : List Char} {c : Cut TokenKind} (h : readString cs = .ok c) :
    c.Takes ('"' :: cs) := by
  unfold readString at h
  split at h
  · exact ⟨readStringBody_source h, readStringBody_text h⟩
  · exact ⟨readStringBody_source h, readStringBody_text h⟩

theorem endChar_takes {opening seen cs : List Char} {value : Char} {c : Cut TokenKind}
    (h : endChar opening value seen cs = .ok c) : c.Takes (seen ++ cs) := by
  unfold endChar at h
  split at h
  · cases h
    exact ⟨by simp [Cut.source], by simp⟩
  · cases h

theorem readChar_takes {cs : List Char} {c : Cut TokenKind} (h : readChar cs = .ok c) :
    c.Takes ('\'' :: cs) := by
  unfold readChar at h
  dsimp only at h
  split at h
  · split at h
    · next eq =>
      have := endChar_takes h
      rwa [List.cons_append, List.cons_append, ← Cut.source, (readEscape_takes eq).source] at this
    · cases h
  · split at h
    · cases h
    · exact endChar_takes h
  · cases h

/-! ## Shaders and comments -/

theorem readCode_source {seen cs : List Char} {c : Cut Unit} (h : readCode seen cs = some c) :
    c.text ++ '|' :: ']' :: c.rest = seen.reverse ++ cs := by
  fun_induction readCode seen cs with
  | case1 =>
    cases h
    rfl
  | case2 seen c cs _ ih =>
    rw [ih h]
    simp
  | case3 => cases h

theorem readNested_source {seen cs : List Char} {depth : Nat} {c : Cut Unit}
    (h : readNested seen depth cs = some c) :
    c.text ++ '-' :: '}' :: c.rest = seen.reverse ++ cs := by
  fun_induction readNested seen depth cs with
  | case1 _ _ _ ih =>
    rw [ih h]
    simp
  | case2 =>
    cases h
    rfl
  | case3 _ _ _ ih =>
    rw [ih h]
    simp
  | case4 _ _ _ _ _ _ _ ih =>
    rw [ih h]
    simp
  | case5 => cases h

theorem readShader_takes {cs : List Char} {c : Cut TokenKind} (h : readShader cs = .ok c) :
    c.Takes (shaderOpening ++ cs) := by
  unfold readShader at h
  split at h
  · next code eq =>
    cases h
    have := readCode_source eq
    exact ⟨by simp_all [Cut.source], by simp⟩
  · cases h

theorem readPlainComment_takes {cs : List Char} {c : Cut (Option TokenKind)}
    (h : readPlainComment cs = .ok c) : c.Takes ('{' :: '-' :: cs) := by
  unfold readPlainComment at h
  split at h
  · next inner eq =>
    cases h
    have := readNested_source eq
    exact ⟨by simp_all [Cut.source], by simp⟩
  · cases h

theorem readDocComment_takes {cs : List Char} {c : Cut (Option TokenKind)}
    (h : readDocComment cs = .ok c) : c.Takes ('{' :: '-' :: '|' :: cs) := by
  unfold readDocComment at h
  split at h
  · next inner eq =>
    cases h
    have := readNested_source eq
    exact ⟨by simp_all [Cut.source], by simp⟩
  · cases h

/-! ## Tokens and pieces -/

theorem readMark_takes {c : Char} {cs : List Char} {cut : Cut TokenKind}
    (h : readMark c cs = .ok cut) : cut.Takes (c :: cs) := by
  unfold readMark at h
  split at h
  · cases h
    exact ⟨rfl, by simp⟩
  · split at h
    · cases h
      exact ⟨by simp [Cut.source], by simp⟩
    · cases h

theorem readToken_takes {c : Char} {cs : List Char} {cut : Cut TokenKind}
    (h : readToken c cs = .ok cut) : cut.Takes (c :: cs) := by
  unfold readToken at h
  split at h
  · next digit => exact readNumber_takes digit h
  split at h
  · next letter =>
    cases h
    refine readName_takes ?_
    simp only [isNameChar, Bool.or_eq_true] at letter ⊢
    exact letter.elim (fun l => .inl (.inl l)) .inr
  split at h
  · next eq =>
    subst eq
    exact readString_takes h
  split at h
  · next eq =>
    subst eq
    exact readChar_takes h
  split at h
  · exact readShader_takes h
  · exact readMark_takes h

/-- A piece and what is left after it are the source that was there, and a
    piece is at least one character long. -/
theorem readPiece_takes {c : Char} {cs : List Char} {cut : Cut (Option TokenKind)}
    (h : readPiece c cs = .ok cut) : cut.Takes (c :: cs) := by
  unfold readPiece at h
  split at h
  · cases h
    exact ⟨rfl, by simp⟩
  split at h
  · cases h
  split at h
  · cases h
    exact ⟨by simp [Cut.source], by simp⟩
  · exact readDocComment_takes h
  · exact readPlainComment_takes h
  · cases eq : readToken c cs with
    | error fault => simp [eq, Except.map] at h
    | ok token =>
      simp only [eq, Except.map] at h
      cases h
      have := readToken_takes eq
      exact ⟨this.source, this.text⟩

end ElmIntake
