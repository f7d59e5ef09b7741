import ElmIntake.Token.Lossless

/-! # Readers do not look past a stop

    Readers look at up to six characters before they know what they read. A
    **stop**, such as a blank or a line feed, decides like the end of the source if it
    is among these. So what stands behind a source and begins with a stop changes
    nothing of what is read: a reader takes the same text, and leaves the new text
    behind what it left.

    Line comments are the exception. Of all stops only a line feed ends them. -/

namespace ElmIntake

/-! ## Stops -/

/-- Blanks, parentheses and the comma: characters that belong to nothing that
    stands before them. -/
def stops : List Char := [' ', '\n', '\r', '(', ')', ',']

/-- Does a class of characters hold no stop? -/
def StopFree (p : Char → Bool) : Prop := ∀ d ∈ stops, p d = false

-- The characters are gone through as a list. To decide it of all there are is hopeless.
instance (p : Char → Bool) : Decidable (StopFree p) := List.decidableBAll _ _

theorem stopFree_isNameChar : StopFree isNameChar := by decide

theorem stopFree_isAlphabetic : StopFree Text.isAlphabetic := by decide

theorem stopFree_isSymbol : StopFree isSymbol := by decide

theorem stopFree_isDigit : StopFree Char.isDigit := by decide

theorem stopFree_isHexDigit : StopFree isHexDigit := by decide

/-- The cut of a source with more text behind it. -/
def Cut.before {α : Type} (more : List Char) (c : Cut α) : Cut α :=
  { c with rest := c.rest ++ more }

/-- Does a reader that succeeds on a source cut it in the same way when more text
    stands behind it, a stop first? -/
def Local {α : Type} (reader : List Char → Except LexFault (Cut α)) : Prop :=
  ∀ ⦃cs cut⦄, reader cs = .ok cut →
    ∀ ⦃d⦄, d ∈ stops → ∀ more, reader (cs ++ d :: more) = .ok (cut.before (d :: more))

variable {d : Char} {more : List Char}

/-! ## Looking ahead -/

theorem takeWhile_before {p : Char → Bool} (hp : p d = false) (cs : List Char) :
    (cs ++ d :: more).takeWhile p = cs.takeWhile p := by
  induction cs with
  | nil => simp [hp]
  | cons c cs ih => rw [List.cons_append, List.takeWhile_cons, List.takeWhile_cons, ih]

theorem dropWhile_before {p : Char → Bool} (hp : p d = false) (cs : List Char) :
    (cs ++ d :: more).dropWhile p = cs.dropWhile p ++ d :: more := by
  induction cs with
  | nil => simp [hp]
  | cons c cs ih =>
    rw [List.cons_append, List.dropWhile_cons, List.dropWhile_cons, ih]
    split <;> rfl

theorem ofClass_before {p : Char → Bool} (hp : p d = false) (cs : List Char) :
    Cut.ofClass p (cs ++ d :: more) = (Cut.ofClass p cs).before (d :: more) := by
  unfold Cut.ofClass
  rw [takeWhile_before hp, dropWhile_before hp]
  rfl

/-- Is a mark free of stops? -/
def IsUnstopped (mark : List Char) : Prop := ∀ c ∈ mark, c ∉ stops

instance (mark : List Char) : Decidable (IsUnstopped mark) := List.decidableBAll _ _

/-- What begins with a stop makes no mark at the beginning of a source. -/
theorem isPrefix_before {mark cs : List Char} (hmark : IsUnstopped mark) (hd : d ∈ stops)
    (h : mark <+: cs ++ d :: more) : mark <+: cs := by
  rcases List.prefix_or_prefix_of_prefix h (List.prefix_append cs (d :: more)) with h' | h'
  · exact h'
  · -- A mark that is longer than the source would have to hold the stop.
    obtain ⟨longer, rfl⟩ := h'
    rw [List.prefix_append_right_inj] at h
    cases longer with
    | nil => simp
    | cons c longer =>
      obtain ⟨rfl, -⟩ := List.cons_prefix_cons.1 h
      exact absurd hd (hmark c (by simp))

/-- The same for a mark that a reader matches. -/
theorem ne_before (mark : List Char) {cs : List Char} (hmark : IsUnstopped mark) (hd : d ∈ stops)
    (h : ∀ rest, cs = mark ++ rest → False) (rest : List Char) :
    cs ++ d :: more = mark ++ rest → False := by
  intro heq
  obtain ⟨rest', hrest'⟩ := isPrefix_before hmark hd ⟨rest, heq.symm⟩
  exact h rest' hrest'.symm

/-! ## Names -/

theorem readDotted_before (hd : d ∈ stops) (upper : Bool) (cs : List Char) :
    readDotted upper (cs ++ d :: more) = (readDotted upper cs).before (d :: more) := by
  fun_induction readDotted upper cs with
  | case1 upper c cs hstart ih =>
    rw [List.cons_append, List.cons_append, readDotted, if_pos hstart,
      dropWhile_before (stopFree_isNameChar d hd), takeWhile_before (stopFree_isNameChar d hd), ih]
    rfl
  | case2 upper c cs hstart =>
    rw [List.cons_append, List.cons_append, readDotted, if_neg hstart]
    rfl
  | case3 upper cs hdot =>
    -- Without more text behind, the source may end in a dot; a stop starts no segment.
    by_cases hend : cs = ['.']
    · have hstop : ¬ (Text.isAlphabetic d && (upper || Text.isLowercase d)) = true := by
        simp [stopFree_isAlphabetic d hd]
      rw [hend, List.cons_append, List.nil_append, readDotted, if_neg hstop]
      rfl
    · rw [readDotted]
      · rfl
      · intro c rest heq
        rcases cs with _ | ⟨e, _ | ⟨f, cs⟩⟩
        · cases heq
          revert hd
          decide
        · cases heq
          exact hend rfl
        · cases heq
          exact hdot _ _ rfl

theorem readName_before (hd : d ∈ stops) (cs : List Char) :
    readName (cs ++ d :: more) = (readName cs).before (d :: more) := by
  unfold readName
  dsimp only
  rw [takeWhile_before (stopFree_isNameChar d hd), dropWhile_before (stopFree_isNameChar d hd),
    readDotted_before hd]
  split <;> rfl

/-! ## Numbers -/

theorem readFraction_before (hd : d ∈ stops) (cs : List Char) :
    readFraction (cs ++ d :: more) = (readFraction cs).before (d :: more) := by
  have hdot : d ≠ '.' := by
    rintro rfl
    revert hd
    decide
  rcases cs with _ | ⟨c, _ | ⟨e, cs⟩⟩
  · simp [readFraction, Cut.before, hdot]
  · by_cases hc : c = '.'
    · simp [readFraction, Cut.before, hc, stopFree_isDigit d hd]
    · simp [readFraction, Cut.before, hc]
  · by_cases hc : c = '.'
    · rw [hc]
      simp only [readFraction, List.cons_append]
      split
      · rw [ofClass_before (stopFree_isDigit d hd)]
        rfl
      · rfl
    · simp [readFraction, Cut.before, hc]

theorem readExponent_before (hd : d ∈ stops) (cs : List Char) :
    readExponent (cs ++ d :: more) = (readExponent cs).before (d :: more) := by
  have hdigit := stopFree_isDigit d hd
  have hletter : (d == 'e' || d == 'E') = false :=
    (by decide : StopFree fun d => d == 'e' || d == 'E') d hd
  have hsign : (d == '+' || d == '-') = false :=
    (by decide : StopFree fun d => d == '+' || d == '-') d hd
  -- The reader looks at two characters, and the stop may be one of them.
  rcases cs with _ | ⟨e, _ | ⟨s, cs⟩⟩
  · cases more with
    | nil => rfl
    | cons c more => simp [readExponent, Cut.before, hletter]
  · simp [readExponent, Cut.before, hdigit, hsign]
  · simp only [readExponent, List.cons_append]
    split
    · split
      · rw [ofClass_before (stopFree_isDigit d hd)]
        rfl
      · split
        · cases cs with
          | nil => simp [Cut.before, hdigit]
          | cons c ds =>
            dsimp only [List.cons_append]
            split
            · rw [ofClass_before (stopFree_isDigit d hd)]
              rfl
            · rfl
        · rfl
    · rfl

theorem endNumber_local (digits text : List Char) : Local (endNumber digits text) := by
  intro rest cut h d hd more
  unfold endNumber at h ⊢
  split at h
  · cases h
  · next hend =>
    cases h
    cases rest with
    | nil => exact if_neg (by simp [stopFree_isNameChar d hd])
    | cons c rest => exact if_neg hend

theorem readHexNumber_local (x : Char) : Local (readHexNumber x) := by
  intro cs cut h d hd more
  unfold readHexNumber at h ⊢
  dsimp only at h ⊢
  rw [takeWhile_before (stopFree_isHexDigit d hd), dropWhile_before (stopFree_isHexDigit d hd)]
  split at h
  · cases h
  · next hdigits =>
    rw [if_neg hdigits]
    exact endNumber_local _ _ h hd more

theorem readDecimal_local : Local readDecimal := by
  intro cs cut h d hd more
  unfold readDecimal at h ⊢
  dsimp only at h ⊢
  rw [takeWhile_before (stopFree_isDigit d hd), dropWhile_before (stopFree_isDigit d hd),
    readFraction_before hd]
  dsimp only [Cut.before]
  rw [readExponent_before hd]
  exact endNumber_local _ _ h hd more

theorem readNumber_local : Local readNumber := by
  intro cs cut h d hd more
  unfold readNumber at h
  split at h
  · exact readHexNumber_local _ h hd more
  · exact readHexNumber_local _ h hd more
  · next hlower hupper =>
    rw [readNumber]
    · exact readDecimal_local h hd more
    · exact ne_before ['0', 'x'] (by decide) hd hlower
    · exact ne_before ['0', 'X'] (by decide) hd hupper

/-! ## Strings and characters -/

theorem readCodePoint_local : Local readCodePoint := by
  intro cs cut h d hd more
  unfold readCodePoint at h ⊢
  rw [dropWhile_before (stopFree_isHexDigit d hd), takeWhile_before (stopFree_isHexDigit d hd)]
  split at h
  · next rest hrest =>
    rw [hrest]
    dsimp only [List.cons_append]
    split at h
    · cases h
      rfl
    · cases h
  · cases h

theorem readEscape_local : Local readEscape := by
  intro cs cut h d hd more
  unfold readEscape at h
  split at h
  case h_7 rest =>
    cases hpoint : readCodePoint rest with
    | error fault =>
      rw [hpoint] at h
      cases h
    | ok point =>
      rw [hpoint] at h
      cases h
      change (readCodePoint (rest ++ d :: more)).map _ = _
      rw [readCodePoint_local hpoint hd]
      rfl
  all_goals cases h
  all_goals rfl

theorem readStringBody_before (hd : d ∈ stops) {opening read seen cs : List Char} {triple : Bool}
    {cut : Cut TokenKind} (h : readStringBody opening triple read seen cs = .ok cut)
    (opening' : List Char) :
    readStringBody opening' triple read seen (cs ++ d :: more) = .ok (cut.before (d :: more)) := by
  fun_induction readStringBody opening triple read seen cs with
  | case1 => cases h
  | case2 read seen cs e hescape ih =>
    rw [List.cons_append, readStringBody, if_pos rfl, readEscape_local hescape hd]
    exact ih h
  | case3 => cases h
  | case4 read seen c cs hescape htriple hquotes =>
    cases h
    obtain ⟨rfl, rest, rfl⟩ := hquotes
    rw [List.cons_append, readStringBody, if_neg hescape, if_pos htriple, if_pos ⟨rfl, by simp⟩]
    rfl
  | case5 read seen c cs hescape htriple hquotes ih =>
    -- Quotes at the end of the source do not become three by what stands behind.
    have hquotes' : ¬ (c = '"' ∧ ['"', '"'] <+: cs ++ d :: more) :=
      fun hend => hquotes ⟨hend.1, isPrefix_before (by decide) hd hend.2⟩
    rw [List.cons_append, readStringBody, if_neg hescape, if_pos htriple, if_neg hquotes']
    exact ih h
  | case6 => cases h
  | case7 read seen cs hescape htriple hfeed =>
    cases h
    rw [List.cons_append, readStringBody, if_neg hescape, if_neg htriple, if_neg hfeed, if_pos rfl]
    rfl
  | case8 read seen c cs hescape htriple hfeed hquote ih =>
    rw [List.cons_append, readStringBody, if_neg hescape, if_neg htriple, if_neg hfeed,
      if_neg hquote]
    exact ih h

theorem readString_local : Local readString := by
  intro cs cut h d hd more
  unfold readString at h
  split at h
  · exact readStringBody_before hd h _
  · next hquotes =>
    rw [readString]
    · exact readStringBody_before hd h _
    · exact ne_before ['"', '"'] (by decide) hd hquotes

theorem endChar_before {opening seen cs : List Char} {value : Char} {cut : Cut TokenKind}
    (h : endChar opening value seen cs = .ok cut) (opening' : List Char) :
    endChar opening' value seen (cs ++ d :: more) = .ok (cut.before (d :: more)) := by
  unfold endChar at h
  split at h
  · cases h
    rfl
  · cases h

theorem readChar_local : Local readChar := by
  intro cs cut h d hd more
  unfold readChar at h ⊢
  dsimp only at h
  split at h
  · next rest =>
    split at h
    · next e hescape =>
      simp only [List.cons_append, readEscape_local hescape hd]
      exact endChar_before h _
    · cases h
  · next c rest hescape =>
    split at h
    · cases h
    · next hquote =>
      dsimp only [List.cons_append]
      split
      · next heq =>
        cases heq
        exact (hescape rfl).elim
      · next heq =>
        cases heq
        rw [if_neg hquote]
        exact endChar_before h _
      · next heq => cases heq
  · cases h

/-! ## Shaders and comments -/

theorem readCode_before (hd : d ∈ stops) {seen cs : List Char} {cut : Cut Unit}
    (h : readCode seen cs = some cut) :
    readCode seen (cs ++ d :: more) = some (cut.before (d :: more)) := by
  fun_induction readCode seen cs with
  | case1 =>
    cases h
    rfl
  | case2 seen c cs hend ih =>
    rw [List.cons_append, readCode]
    · exact ih h
    · exact fun rest hbar => ne_before [']'] (by decide) hd (fun rest => hend rest hbar) rest
  | case3 => cases h

theorem readNested_before (hd : d ∈ stops) {seen cs : List Char} {depth : Nat} {cut : Cut Unit}
    (h : readNested seen depth cs = some cut) :
    readNested seen depth (cs ++ d :: more) = some (cut.before (d :: more)) := by
  fun_induction readNested seen depth cs with
  | case1 seen depth cs ih =>
    rw [List.cons_append, List.cons_append, readNested]
    exact ih h
  | case2 =>
    cases h
    rfl
  | case3 seen depth cs ih =>
    rw [List.cons_append, List.cons_append, readNested]
    exact ih h
  | case4 seen depth c cs hopen hend hclose ih =>
    rw [List.cons_append, readNested]
    · exact ih h
    · exact fun rest hc => ne_before ['-'] (by decide) hd (fun rest => hopen rest hc) rest
    · exact fun rest hdepth hc =>
        ne_before ['\x7d'] (by decide) hd (fun rest => hend rest hdepth hc) rest
    · exact fun n rest hdepth hc =>
        ne_before ['\x7d'] (by decide) hd (fun rest => hclose n rest hdepth hc) rest
  | case5 => cases h

theorem readShader_local : Local readShader := by
  intro cs cut h d hd more
  unfold readShader at h ⊢
  cases hcode : readCode [] cs with
  | none =>
    rw [hcode] at h
    cases h
  | some code =>
    rw [hcode] at h
    cases h
    rw [readCode_before hd hcode]
    rfl

theorem readPlainComment_local : Local readPlainComment := by
  intro cs cut h d hd more
  unfold readPlainComment at h ⊢
  cases hinner : readNested [] 0 cs with
  | none =>
    rw [hinner] at h
    cases h
  | some inner =>
    rw [hinner] at h
    cases h
    rw [readNested_before hd hinner]
    rfl

theorem readDocComment_local : Local readDocComment := by
  intro cs cut h d hd more
  unfold readDocComment at h ⊢
  cases hinner : readNested [] 0 cs with
  | none =>
    rw [hinner] at h
    cases h
  | some inner =>
    rw [hinner] at h
    cases h
    rw [readNested_before hd hinner]
    rfl

/-! ## Tokens and pieces -/

theorem readMark_local (c : Char) : Local (readMark c) := by
  intro cs cut h d hd more
  unfold readMark at h ⊢
  cases hmark : mark? c with
  | some kind =>
    rw [hmark] at h
    cases h
    rfl
  | none =>
    rw [hmark] at h
    dsimp only at h ⊢
    split at h
    · next hsymbol =>
      cases h
      rw [if_pos hsymbol, takeWhile_before (stopFree_isSymbol d hd),
        dropWhile_before (stopFree_isSymbol d hd)]
      rfl
    · cases h

theorem readToken_local (c : Char) : Local (readToken c) := by
  intro cs cut h d hd more
  unfold readToken at h ⊢
  split at h
  · next hdigit =>
    rw [if_pos hdigit, ← List.cons_append]
    exact readNumber_local h hd more
  next hdigit =>
  rw [if_neg hdigit]
  split at h
  · next hletter =>
    cases h
    rw [if_pos hletter, ← List.cons_append, readName_before hd]
  next hletter =>
  rw [if_neg hletter]
  split at h
  · next hstring =>
    rw [if_pos hstring]
    exact readString_local h hd more
  next hstring =>
  rw [if_neg hstring]
  split at h
  · next hchar =>
    rw [if_pos hchar]
    exact readChar_local h hd more
  next hchar =>
  rw [if_neg hchar]
  split at h
  · exact readShader_local h hd more
  · next hshader =>
    split
    · next heq =>
      -- What stands behind does not turn a bracket into the mark of a shader block.
      have hmark : ∀ rest, cs = ['g', 'l', 's', 'l', '|'] ++ rest → False :=
        fun rest => hshader rest rfl
      exact (ne_before _ (by decide) hd hmark _ heq).elim
    · exact readMark_local _ h hd more

theorem Local.map {α β : Type} {reader : List Char → Except LexFault (Cut α)}
    (hlocal : Local reader) (f : α → β) :
    Local fun cs => (reader cs).map fun cut => ⟨f cut.value, cut.text, cut.rest⟩ := by
  intro cs cut h d hd more
  dsimp only at h ⊢
  cases hread : reader cs with
  | error fault =>
    rw [hread] at h
    cases h
  | ok first =>
    rw [hread] at h
    cases h
    rw [hlocal hread hd]
    rfl

/-- **No piece hangs on what stands behind a stop**, but for line comments, which only
    a line feed ends. -/
theorem readPiece_before {c : Char} {cs : List Char} {cut : Cut (Option TokenKind)}
    (h : readPiece c cs = .ok cut) (hd : d ∈ stops)
    (hline : d = '\n' ∨ ¬ (c = '-' ∧ cs.head? = some '-')) (more : List Char) :
    readPiece c (cs ++ d :: more) = .ok (cut.before (d :: more)) := by
  -- Each branch of the reader is taken again: what it looks ahead at stands before the stop.
  unfold readPiece at h ⊢
  split at h
  · next hblank =>
    cases h
    rw [if_pos hblank]
    rfl
  next hblank =>
  rw [if_neg hblank]
  split at h
  · cases h
  next htab =>
  rw [if_neg htab]
  split at h
  · obtain rfl := hline.resolve_right fun hcomment => hcomment ⟨rfl, rfl⟩
    cases h
    simp only [List.cons_append]
    rw [takeWhile_before (by decide), dropWhile_before (by decide)]
    rfl
  · exact readDocComment_local h hd more
  · next _ _ cs hdoc =>
    rw [List.cons_append]
    split
    · next hdash _ => exact absurd hdash (by decide)
    · next heq =>
      exact (ne_before ['|'] (by decide) hd hdoc _ (List.cons.inj heq).2).elim
    · next heq =>
      cases heq
      exact readPlainComment_local h hd more
    · next hplain => exact (hplain _ rfl rfl).elim
  · next hcomment hdoc hplain =>
    split
    · next heq =>
      exact (ne_before ['-'] (by decide) hd (fun rest => hcomment rest rfl) _ heq).elim
    · next heq =>
      exact (ne_before ['-'] (by decide) hd (fun rest => hplain rest rfl) _ heq).elim
    · next heq =>
      exact (ne_before ['-'] (by decide) hd (fun rest => hplain rest rfl) _ heq).elim
    · exact (readToken_local _).map some h hd more

end ElmIntake
