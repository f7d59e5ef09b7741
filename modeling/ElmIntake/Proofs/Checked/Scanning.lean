import ElmIntake.Proofs.Checked.Steps

/-! # Scanners read words and literals as readers do

    For each scanner of names, numbers, strings and characters, one equation: from
    where it stands it comes to the token that the reader cuts, behind its text, or
    reports the fault that the reader finds. Loops are followed by the recursion of
    the reader that they correspond to. -/

namespace ElmIntake

open Machine (run_bind_ok run_bind_error run_bind_again run_check loop loop_done loop_again
  loop_halt)

namespace Scanner

variable {whole taken unread text rest : List Char} {c : Char} {cs : List Char}

/-! ## Names -/

/-- What a scanner that has taken `taken` comes to where a reader comes to a cut or a
    fault. -/
def outcome {α β : Type} (whole taken : List Char) (value : Cut α → β) :
    Except LexFault (Cut α) → Checked LexError (β × Scanner)
  | .ok cut => .ok (value cut, past whole (taken ++ cut.text))
  | .error fault => .error (.report (.ofFault whole fault))

/-- The token that a cut behind `taken` is. -/
def tokenOf (taken : List Char) (cut : Cut TokenKind) : Token :=
  ⟨cut.value, (Position.start.past taken).spanTo (Position.start.past (taken ++ cut.text))⟩

/-- A character that must not be followed is the last one. -/
theorem eq_singleton (hother : ∀ d rest, unread = c :: d :: rest → False)
    (hhead : unread.head? = some c) : unread = [c] := by
  obtain ⟨rest, rfl⟩ := List.head?_eq_some_iff.1 hhead
  cases rest with
  | nil => rfl
  | cons d rest => exact (hother d rest rfl).elim

theorem takeWhile_of_isAlphabetic (hc : Text.isAlphabetic c = true) :
    (c :: cs).takeWhile isNameChar = c :: cs.takeWhile isNameChar := by
  have hname : isNameChar c = true := by simp [isNameChar, hc]
  exact List.takeWhile_cons_of_pos hname

theorem run_segments (h : Splits whole taken unread) (upper : Bool) (text : List Char) :
    (loop left segmentRound (text, upper)).run (past whole taken) =
      .ok ((text ++ (readDotted upper unread).text, (readDotted upper unread).value),
        past whole (taken ++ (readDotted upper unread).text)) := by
  fun_induction readDotted upper unread generalizing taken text with
  | case1 upper c cs hsegment ih =>
    obtain ⟨halpha, hlower⟩ := Bool.and_eq_true_iff.1 hsegment
    have hgoes : (!Text.isAlphabetic c || (!upper && !Text.isLowercase c)) = false := by
      rw [halpha, ← Bool.not_or, hlower]
      rfl
    have hround : (segmentRound (text, upper)).run (past whole taken) =
        .ok (.again (text ++ '.' :: c :: cs.takeWhile isNameChar, upper && Text.isUppercase c),
          past whole (taken ++ '.' :: c :: cs.takeWhile isNameChar)) := by
      unfold segmentRound
      rw [run_bind_first h, if_pos rfl, run_bind_second h]
      dsimp only [List.head?_cons]
      rw [hgoes, if_neg Bool.false_ne_true, run_bind_ok (run_advance h),
        run_bind_ok (run_takeWhile h.next isNameChar), takeWhile_of_isAlphabetic halpha,
        List.append_assoc, List.singleton_append]
      rfl
    have hsplit : Splits whole taken
        (('.' :: c :: cs.takeWhile isNameChar) ++ cs.dropWhile isNameChar) := by
      rwa [List.cons_append, List.cons_append, List.takeWhile_append_dropWhile]
    rw [loop_again hround (left_lt hsplit (List.cons_ne_nil _ _)), ih hsplit.ahead]
    simp [Cut.after]
  | case2 upper c cs hsegment =>
    have hstops : (!Text.isAlphabetic c || (!upper && !Text.isLowercase c)) = true := by
      rw [Bool.not_eq_true, Bool.and_eq_false_iff] at hsegment
      rw [← Bool.not_or, ← Bool.not_and, Bool.not_eq_true', Bool.and_eq_false_iff]
      exact hsegment
    have hround : (segmentRound (text, upper)).run (past whole taken) =
        .ok (.done (text, upper), past whole taken) := by
      unfold segmentRound
      rw [run_bind_first h, if_pos rfl, run_bind_second h]
      dsimp only [List.head?_cons]
      rw [hstops, if_pos rfl]
      rfl
    rw [loop_done hround]
    simp
  | case3 upper unread hother =>
    have hround : (segmentRound (text, upper)).run (past whole taken) =
        .ok (.done (text, upper), past whole taken) := by
      unfold segmentRound
      rw [run_bind_head h]
      -- A dot that no segment follows is left where it is.
      by_cases hdot : unread.head? = some '.'
      · obtain rfl := eq_singleton hother hdot
        rw [if_pos hdot, run_bind_second h]
        rfl
      · rw [if_neg hdot]
        rfl
    rw [loop_done hround]
    simp

/-- A scanner reads a name as `readName` does. -/
theorem run_name (h : Splits whole taken unread) :
    (name (Position.start.past taken)).run (past whole taken) =
      outcome whole taken (tokenOf taken) (.ok (readName unread)) := by
  have hfirst := h.overClass isNameChar
  unfold name readName
  rw [run_bind_ok (run_takeWhile h isNameChar)]
  dsimp only
  by_cases hwild : unread.takeWhile isNameChar = ['_']
  · rw [if_pos hwild, if_pos hwild, run_token h hfirst]
    rfl
  · have hdotted := readDotted_source ((unread.takeWhile isNameChar).head?.any Text.isUppercase)
      (unread.dropWhile isNameChar)
    have hrest := hfirst
    rw [← hdotted] at hrest
    rw [if_neg hwild, if_neg hwild, run_bind_ok (run_segments hfirst _ _)]
    dsimp only
    rw [run_token h hrest.ahead, List.append_assoc]
    rfl

/-! ## Numbers -/

theorem run_fraction (h : Splits whole taken unread) (text : List Char) :
    (fraction text).run (past whole taken) =
      .ok (text ++ (readFraction unread).text,
        past whole (taken ++ (readFraction unread).text)) := by
  unfold fraction
  fun_cases readFraction unread with
  | case1 c cs hdigit =>
    have hany : (c :: cs).head?.any Char.isDigit = true := hdigit
    rw [run_bind_first h, if_pos rfl, run_bind_second h, if_pos hany,
      run_bind_ok (run_advance h), run_bind_ok (run_takeWhile h.next Char.isDigit),
      List.takeWhile_cons_of_pos hdigit, List.append_assoc]
    rfl
  | case2 c cs hdigit =>
    have hany : ¬ (c :: cs).head?.any Char.isDigit = true := hdigit
    rw [run_bind_first h, if_pos rfl, run_bind_second h, if_neg hany, List.append_nil,
      List.append_nil]
    rfl
  | case3 unread hother =>
    rw [List.append_nil, List.append_nil, run_bind_head h]
    by_cases hdot : unread.head? = some '.'
    · obtain rfl := eq_singleton hother hdot
      rw [if_pos hdot, run_bind_second h]
      rfl
    · rw [if_neg hdot]
      rfl

theorem run_advanceOnto (h : Splits whole taken (text ++ rest)) (front : List Char) :
    (advanceOnto front text.length).run (past whole taken) =
      .ok (front ++ text, past whole (taken ++ text)) := by
  induction text generalizing taken front with
  | nil =>
    rw [List.append_nil, List.append_nil]
    rfl
  | cons c text ih =>
    rw [List.length_cons, advanceOnto, run_bind_ok (run_advance h)]
    dsimp only
    rw [ih h.next, List.append_assoc, List.append_assoc, List.singleton_append]

/-- The letter of an exponent, perhaps its sign, and its digits. -/
theorem run_exponentDigits (text : List Char) {d : Char}
    (h : Splits whole taken (text ++ d :: cs))
    (hdigit : d.isDigit = true) (front : List Char) :
    StateT.run (do
      let text ← advanceOnto front text.length
      return text ++ (← takeWhile Char.isDigit)) (past whole taken) =
      .ok (front ++ (text ++ d :: cs.takeWhile Char.isDigit),
        past whole (taken ++ (text ++ d :: cs.takeWhile Char.isDigit))) := by
  rw [run_bind_ok (run_advanceOnto h front), run_bind_ok (run_takeWhile h.ahead Char.isDigit),
    List.takeWhile_cons_of_pos hdigit, List.append_assoc, List.append_assoc]
  rfl

theorem run_exponent (h : Splits whole taken unread) (text : List Char) :
    (exponent text).run (past whole taken) =
      .ok (text ++ (readExponent unread).text,
        past whole (taken ++ (readExponent unread).text)) := by
  -- The scanner tests with equations what the reader tests with Booleans.
  have hmark : ∀ {e : Char}, (e == 'e' || e == 'E') = true →
      some e = some 'e' ∨ some e = some 'E' := by
    intro e he
    simpa using he
  have hsign : ∀ {s : Char} {cs : List Char}, (s == '+' || s == '-') = true →
      (s :: cs).head? = some '+' ∨ (s :: cs).head? = some '-' := by
    intro s cs hs
    simpa using hs
  have hnone : ∀ {s : Char} {cs : List Char}, ¬ (s == '+' || s == '-') = true →
      ¬ ((s :: cs).head? = some '+' ∨ (s :: cs).head? = some '-') := by
    intro s cs hs
    simpa using hs
  unfold exponent
  fun_cases readExponent unread with
  | case1 e s cs he hdigit =>
    have hplain : ¬ (s == '+' || s == '-') = true := by
      rintro hs
      rcases Bool.or_eq_true_iff.1 hs with hs | hs
      · rw [eq_of_beq hs] at hdigit
        exact absurd hdigit (by decide)
      · rw [eq_of_beq hs] at hdigit
        exact absurd hdigit (by decide)
    have hany : (s :: cs).head?.any Char.isDigit = true := hdigit
    rw [run_bind_first h, if_pos (hmark he), run_bind_second h]
    dsimp only
    rw [if_neg (hnone hplain), run_bind_second h, if_pos hany]
    exact run_exponentDigits [e] h hdigit text
  | case2 e s he hs hsigned d ds hdigit =>
    have hany : (e :: s :: d :: ds)[2]?.any Char.isDigit = true := hdigit
    rw [run_bind_first h, if_pos (hmark he), run_bind_second h]
    dsimp only
    rw [if_pos (hsign hsigned), run_bind_ok (run_peek? h (by decide)), if_pos hany]
    exact run_exponentDigits [e, s] h hdigit text
  | case3 e s he hs hsigned d ds hdigit =>
    have hany : ¬ (e :: s :: d :: ds)[2]?.any Char.isDigit = true := hdigit
    rw [run_bind_first h, if_pos (hmark he), run_bind_second h]
    dsimp only
    rw [if_pos (hsign hsigned), run_bind_ok (run_peek? h (by decide)), if_neg hany,
      List.append_nil, List.append_nil]
    rfl
  | case4 e s he hs hsigned =>
    rw [run_bind_first h, if_pos (hmark he), run_bind_second h]
    dsimp only
    rw [if_pos (hsign hsigned), run_bind_ok (run_peek? h (by decide)), List.append_nil,
      List.append_nil]
    rfl
  | case5 e s cs he hs hplain =>
    have hany : ¬ (s :: cs).head?.any Char.isDigit = true := hs
    rw [run_bind_first h, if_pos (hmark he), run_bind_second h]
    dsimp only
    rw [if_neg (hnone hplain), run_bind_second h, if_neg hany, List.append_nil, List.append_nil]
    rfl
  | case6 e s cs he =>
    rw [run_bind_first h, if_neg (by simpa using he), List.append_nil, List.append_nil]
    rfl
  | case7 unread hother =>
    rw [List.append_nil, List.append_nil, run_bind_head h]
    by_cases he : unread.head? = some 'e' ∨ unread.head? = some 'E'
    · obtain ⟨e, rfl⟩ : ∃ e, unread = [e] := by
        rcases he with he | he
        · exact ⟨'e', eq_singleton (hother 'e') he⟩
        · exact ⟨'E', eq_singleton (hother 'E') he⟩
      rw [if_pos he, run_bind_second h]
      dsimp only
      rw [if_neg (by simp), run_bind_second h]
      rfl
    · rw [if_neg he]
      rfl

/-- A number must not be followed by a name. -/
theorem run_endNumber {digits : List Char} (h : Splits whole taken (text ++ rest)) :
    StateT.run (do
      if (← peek? 0).any isNameChar then failHere .nameAfterNumber
      else token (.number (String.ofList digits)) (Position.start.past taken))
      (past whole (taken ++ text)) =
      outcome whole taken (tokenOf taken) (endNumber digits text rest) := by
  unfold endNumber
  rw [run_bind_head h.ahead]
  by_cases hname : rest.head?.any isNameChar = true
  · rw [if_pos hname, if_pos hname, run_failHere h.ahead]
    rfl
  · rw [if_neg hname, if_neg hname, run_token h h.ahead]
    rfl

theorem run_hexDigits {x : Char} (h : Splits whole taken ('0' :: x :: cs)) :
    hexDigits.run (past whole taken) =
      if (cs.takeWhile isHexDigit).isEmpty then
        .error (.report (.ofFault whole (.here .missingHexDigits (cs.dropWhile isHexDigit))))
      else .ok ('0' :: 'x' :: cs.takeWhile isHexDigit,
        past whole (taken ++ '0' :: x :: cs.takeWhile isHexDigit)) := by
  unfold hexDigits
  rw [run_bind_ok (run_advance h), run_bind_ok (run_advance h.next),
    run_bind_ok (run_takeWhile h.next.next isHexDigit)]
  by_cases hempty : (cs.takeWhile isHexDigit).isEmpty = true
  · rw [if_pos hempty, if_pos hempty, run_failHere (h.next.next.overClass isHexDigit)]
  · rw [if_neg hempty, if_neg hempty, List.append_assoc, List.append_assoc]
    rfl

theorem run_decimalDigits (h : Splits whole taken unread) :
    ∃ text rest, readDecimal unread = endNumber text text rest ∧ Splits whole taken (text ++ rest) ∧
      decimalDigits.run (past whole taken) = .ok (text, past whole (taken ++ text)) := by
  have hfraction := readFraction_source (unread.dropWhile Char.isDigit)
  generalize hcut : readFraction (unread.dropWhile Char.isDigit) = fraction at hfraction
  have hexponent := readExponent_source fraction.rest
  have hfirst := h.overClass Char.isDigit
  have hsecond : Splits whole (taken ++ unread.takeWhile Char.isDigit ++ fraction.text)
      fraction.rest := by
    rw [← hfraction] at hfirst
    exact hfirst.ahead
  refine ⟨unread.takeWhile Char.isDigit ++ (fraction.text ++ (readExponent fraction.rest).text),
    (readExponent fraction.rest).rest, ?_, ?_, ?_⟩
  · unfold readDecimal
    rw [hcut]
  · rw [List.append_assoc, List.append_assoc, ← Cut.source, hexponent, ← Cut.source, hfraction,
      List.takeWhile_append_dropWhile]
    exact h
  · unfold decimalDigits
    rw [run_bind_ok (run_takeWhile h Char.isDigit), run_bind_ok (run_fraction hfirst _), hcut,
      run_exponent hsecond]
    simp only [List.append_assoc]

/-- A scanner reads a number as `readNumber` does. -/
theorem run_number (h : Splits whole taken unread) :
    (number (Position.start.past taken)).run (past whole taken) =
      outcome whole taken (tokenOf taken) (readNumber unread) := by
  -- Both spellings of the letter are read in the same way.
  have hhex : ∀ {x : Char} {cs : List Char}, x = 'x' ∨ x = 'X' → unread = '0' :: x :: cs →
      (number (Position.start.past taken)).run (past whole taken) =
        outcome whole taken (tokenOf taken) (readHexNumber x cs) := by
    intro x cs hx hunread
    rw [hunread] at h
    have hmark : some '0' = some '0' ∧ ((x :: cs).head? = some 'x' ∨ (x :: cs).head? = some 'X') :=
      ⟨rfl, by simpa using hx⟩
    have htext : Splits whole taken
        (('0' :: x :: cs.takeWhile isHexDigit) ++ cs.dropWhile isHexDigit) := by
      rwa [List.cons_append, List.cons_append, List.takeWhile_append_dropWhile]
    have hdigits : digits.run (past whole taken) = hexDigits.run (past whole taken) := by
      unfold digits
      rw [run_bind_second h, run_bind_first h, if_pos hmark]
    rw [run_hexDigits h] at hdigits
    unfold number readHexNumber
    by_cases hempty : (cs.takeWhile isHexDigit).isEmpty = true
    · rw [if_pos hempty] at hdigits
      rw [run_bind_error hdigits, if_pos hempty]
      rfl
    · rw [if_neg hempty] at hdigits
      rw [run_bind_ok hdigits, if_neg hempty, run_endNumber htext]
  fun_cases readNumber unread with
  | case1 cs => exact hhex (.inl rfl) rfl
  | case2 cs => exact hhex (.inr rfl) rfl
  | case3 unread hsmall hlarge =>
    obtain ⟨text, rest, hdecimal, htext, hrun⟩ := run_decimalDigits h
    have hdigits : digits.run (past whole taken) = decimalDigits.run (past whole taken) := by
      unfold digits
      rw [run_bind_ok (run_peek? h (by decide)), run_bind_ok (run_peek? h (by decide)), if_neg]
      rintro ⟨hzero, hx⟩
      obtain ⟨x, cs, rfl⟩ : ∃ x cs, unread = '0' :: x :: cs := by
        match unread with
        | [] => cases hzero
        | [_] =>
          rcases hx with hx | hx
          · cases hx
          · cases hx
        | d :: x :: cs =>
          obtain rfl : d = '0' := Option.some.inj hzero
          exact ⟨x, cs, rfl⟩
      rcases hx with hx | hx
      · obtain rfl : x = 'x' := Option.some.inj hx
        exact hsmall cs rfl
      · obtain rfl : x = 'X' := Option.some.inj hx
        exact hlarge cs rfl
    unfold number
    rw [hdecimal, run_bind_ok (hdigits.trans hrun), run_endNumber htext]

theorem run_operator (h : Splits whole taken unread) :
    (operator (Position.start.past taken)).run (past whole taken) =
      outcome whole taken (tokenOf taken)
        (.ok ⟨symbolKind (unread.takeWhile isSymbol), unread.takeWhile isSymbol,
          unread.dropWhile isSymbol⟩) := by
  unfold operator
  rw [run_bind_ok (run_takeWhile h isSymbol), run_token h (h.overClass isSymbol)]
  rfl

/-! ## Strings and characters -/

/-- A code point in braces; faults in it blame the escape, which began at `before`. -/
theorem run_codePoint {before : List Char}
    (hm : Splits whole before ('\\' :: 'u' :: '{' :: cs)) (h : Splits whole taken ('{' :: cs)) :
    (codePoint (Position.start.past before)).run (past whole taken) =
      outcome whole (taken ++ ['{']) (·.value) (readCodePoint cs) := by
  have hhex := h.next.overClass isHexDigit
  unfold codePoint
  rw [run_bind_ok (run_advance h), run_bind_ok (run_takeWhile h.next isHexDigit)]
  fun_cases readCodePoint cs with
  | case1 rest hrest c hc =>
    rw [hrest] at hhex
    rw [run_bind_first hhex, if_pos rfl, run_bind_ok (run_advance hhex), hc, List.append_assoc]
    rfl
  | case2 rest hrest hc =>
    rw [hrest] at hhex
    rw [run_bind_first hhex, if_pos rfl, run_bind_ok (run_advance hhex), hc]
    dsimp only
    rw [run_failFrom hm hhex.next]
    rfl
  | case3 hother =>
    rw [run_bind_head hhex, if_neg (head?_ne_some hother), run_failFrom hm hhex]
    rfl

/-- A scanner reads an escape as `readEscape` does. -/
theorem run_escape (h : Splits whole taken ('\\' :: cs)) :
    escape.run (past whole taken) =
      outcome whole (taken ++ ['\\']) (·.value) (readEscape cs) := by
  unfold escape
  rw [run_bind_ok (run_mark h), run_bind_ok (run_advance h)]
  fun_cases readEscape cs with
  | case7 rest =>
    rw [run_bind_ok (run_advance h.next)]
    change StateT.run (do
      if (← peek? 0) = some '{' then codePoint (Position.start.past taken)
      else failFrom (Position.start.past taken) .invalidEscape) _ = _
    rw [run_bind_first h.next.next, if_pos rfl, run_codePoint h h.next.next]
    cases readCodePoint rest with
    | ok cut => simp [outcome, Cut.after, Except.map]
    | error fault => rfl
  | case8 c rest hn hr ht hquote happos hback hbrace =>
    rw [run_bind_ok (run_advance h.next)]
    split
    case h_1 heq => exact (hn (Option.some.inj heq)).elim
    case h_2 heq => exact (hr (Option.some.inj heq)).elim
    case h_3 heq => exact (ht (Option.some.inj heq)).elim
    case h_4 heq => exact (hquote (Option.some.inj heq)).elim
    case h_5 heq => exact (happos (Option.some.inj heq)).elim
    case h_6 heq => exact (hback (Option.some.inj heq)).elim
    -- A brace was already excluded by the reader.
    case h_7 heq =>
      have hopen : ¬ rest.head? = some '{' :=
        head?_ne_some fun inner => hbrace inner (Option.some.inj heq)
      rw [run_bind_head h.next.next, if_neg hopen, run_failFrom h h.next.next]
      rfl
    case h_8 =>
      rw [run_failFrom h h.next.next]
      rfl
  | case9 =>
    rw [run_bind_ok (run_advance_end h.next)]
    dsimp only
    rw [run_failFrom h h.next]
    rfl
  | _ rest =>
    rw [run_bind_ok (run_advance h.next)]
    rfl

theorem isPrefixOf_tripleQuotes (c : Char) (cs : List Char) :
    tripleQuotes.isPrefixOf (c :: cs) = true ↔ c = '"' ∧ ['"', '"'] <+: cs := by
  rw [List.isPrefixOf_iff_prefix]
  unfold tripleQuotes
  rw [List.cons_prefix_cons, eq_comm]

/-- The round of a string at a character that is neither its end nor a fault. -/
theorem run_stringRound_char {m : Position} {triple : Bool} {value : List Char}
    (h : Splits whole taken (c :: cs)) (hback : c ≠ '\\')
    (hgoes : if triple then ¬ (c = '"' ∧ ['"', '"'] <+: cs) else c ≠ '\n' ∧ c ≠ '"') :
    (stringRound m triple value).run (past whole taken) =
      .ok (.again (value ++ [c]), past whole (taken ++ [c])) := by
  have hline : ¬ (c = '\n' ∧ triple = false) := by
    rintro ⟨hc, rfl⟩
    exact hgoes.1 hc
  have hsingle : ¬ (c = '"' ∧ triple = false) := by
    rintro ⟨hc, rfl⟩
    exact hgoes.2 hc
  -- A quote in a string with three of them does not end it by itself.
  have hend : (if c = '"' then isAhead tripleQuotes else return false : Scanning Bool).run
      (past whole taken) = .ok (false, past whole taken) := by
    by_cases hc : c = '"'
    · have htriple : triple = true := by
        cases triple with
        | true => rfl
        | false => exact absurd ⟨hc, rfl⟩ hsingle
      rw [htriple, if_pos rfl] at hgoes
      rw [if_pos hc, run_isAhead h, Bool.eq_false_iff.2
        (fun hquotes => hgoes ((isPrefixOf_tripleQuotes c cs).1 hquotes))]
    · rw [if_neg hc]
      rfl
  unfold stringRound
  rw [run_bind_first h]
  dsimp only
  rw [if_neg hline, if_neg hsingle, run_bind_ok hend, if_neg Bool.false_ne_true, if_neg hback,
    run_bind_ok (run_advance h)]
  rfl

/-- The round of a string behind its last character, which its end should be. -/
theorem run_stringRound_end {before opening : List Char} (triple : Bool) (value : List Char)
    (hm : Splits whole before opening) (h : Splits whole taken []) :
    (stringRound (Position.start.past before) triple value).run (past whole taken) =
      .error (.report (.ofFault whole ⟨.unterminatedString, opening, []⟩)) := by
  unfold stringRound
  rw [run_bind_first_end h]
  dsimp only
  rw [run_failFrom hm h]

/-- The round of a string at an escape, which adds its character or has its fault. -/
theorem run_stringRound_escape (m : Position) (triple : Bool) (value : List Char)
    (h : Splits whole taken ('\\' :: cs)) :
    (stringRound m triple value).run (past whole taken) =
      outcome whole (taken ++ ['\\']) (fun e => .again (value ++ [e.value])) (readEscape cs) := by
  have hrun := run_escape h
  unfold stringRound
  rw [run_bind_first h]
  dsimp only
  rw [if_neg (by simp), if_neg (by simp), if_neg (by decide), run_bind_ok rfl,
    if_neg Bool.false_ne_true, if_pos rfl]
  cases hescape : readEscape cs with
  | ok e =>
    rw [hescape] at hrun
    rw [run_bind_ok hrun]
    rfl
  | error fault =>
    rw [hescape] at hrun
    rw [run_bind_error hrun]
    rfl

/-- Three quotes end a string that they began. -/
theorem run_stringRound_quotes (m : Position) (value : List Char)
    (h : Splits whole taken (tripleQuotes ++ rest)) :
    (stringRound m true value).run (past whole taken) =
      .ok (.done value, past whole (taken ++ tripleQuotes)) := by
  have hahead : Splits whole taken ('"' :: '"' :: '"' :: rest) := h
  unfold stringRound
  rw [run_bind_first hahead]
  dsimp only
  rw [if_neg (by simp), if_neg (by simp), if_pos rfl, run_bind_ok (run_isAhead hahead _),
    if_pos (by simp [tripleQuotes]), run_bind_ok (run_advanceBy 3 h rfl)]
  rfl

/-- A string that one quote began must not run on into the next line. -/
theorem run_stringRound_line {before opening : List Char} (value : List Char)
    (hm : Splits whole before opening) (h : Splits whole taken ('\n' :: cs)) :
    (stringRound (Position.start.past before) false value).run (past whole taken) =
      .error (.report (.ofFault whole ⟨.unterminatedString, opening, '\n' :: cs⟩)) := by
  unfold stringRound
  rw [run_bind_first h]
  dsimp only
  rw [if_pos ⟨rfl, rfl⟩, run_failFrom hm h]

/-- It ends at the next quote. -/
theorem run_stringRound_quote (m : Position) (value : List Char)
    (h : Splits whole taken ('"' :: cs)) :
    (stringRound m false value).run (past whole taken) =
      .ok (.done value, past whole (taken ++ ['"'])) := by
  unfold stringRound
  rw [run_bind_first h]
  dsimp only
  rw [if_neg (by simp), if_pos ⟨rfl, rfl⟩, run_bind_ok (run_advance h)]
  rfl

/-- A string that began at `before`, of which `seen` has been read. -/
theorem run_stringBody {before opening : List Char} {triple : Bool} (read seen : List Char)
    (hm : Splits whole before opening) (h : Splits whole (before ++ seen.reverse) cs) :
    (stringBody (Position.start.past before) triple read.reverse).run
        (past whole (before ++ seen.reverse)) =
      outcome whole before (tokenOf before) (readStringBody opening triple read seen cs) := by
  have hnext : ∀ {seen : List Char} {c : Char} {cs : List Char},
      Splits whole (before ++ seen.reverse) (c :: cs) →
      Splits whole (before ++ (c :: seen).reverse) cs := by
    intro seen c cs h
    rw [List.reverse_cons, ← List.append_assoc]
    exact h.next
  -- Most characters are added to the value, and the loop goes on.
  have hchar : ∀ {read seen : List Char} {c : Char} {cs : List Char},
      Splits whole (before ++ seen.reverse) (c :: cs) → c ≠ '\\' →
      (if triple then ¬ (c = '"' ∧ ['"', '"'] <+: cs) else c ≠ '\n' ∧ c ≠ '"') →
      (stringBody (Position.start.past before) triple read.reverse).run
          (past whole (before ++ seen.reverse)) =
        (stringBody (Position.start.past before) triple (c :: read).reverse).run
          (past whole (before ++ (c :: seen).reverse)) := by
    intro read seen c cs h hback hgoes
    unfold stringBody
    rw [run_bind_again (run_stringRound_char h hback hgoes) (left_lt_next h), List.reverse_cons,
      List.reverse_cons, ← List.append_assoc]
  -- The induction is on what the reader takes: each of its cases is one round of the loop.
  fun_induction readStringBody opening triple read seen cs with
  | case1 read seen =>
    rw [stringBody, run_bind_error (loop_halt (run_stringRound_end triple _ hm h))]
    rfl
  | case2 read seen cs e hescape ih =>
    have hround := run_stringRound_escape (Position.start.past before) triple read.reverse h
    rw [hescape] at hround
    have hsplit : Splits whole (before ++ seen.reverse) (('\\' :: e.text) ++ e.rest) := by
      rwa [List.cons_append, ← Cut.source, (readEscape_takes hescape).source]
    have hseen : before ++ seen.reverse ++ ['\\'] ++ e.text =
        before ++ (e.text.reverse ++ '\\' :: seen).reverse := by simp
    have hread : read.reverse ++ [e.value] = (e.value :: read).reverse := by simp
    have hleft := left_lt hsplit (List.cons_ne_nil _ _)
    have hbehind := hsplit.ahead
    rw [List.append_cons, hseen] at hleft hbehind
    rw [outcome, hseen, hread] at hround
    rw [stringBody, run_bind_again hround hleft]
    exact ih hbehind
  | case3 read seen cs fault hescape =>
    have hround := run_stringRound_escape (Position.start.past before) triple read.reverse h
    rw [hescape] at hround
    rw [stringBody, run_bind_error (loop_halt hround)]
    rfl
  | case4 read seen c cs hback htriple hquotes =>
    obtain ⟨rfl, rest, rfl⟩ := hquotes
    have hsplit : Splits whole (before ++ seen.reverse) (tripleQuotes ++ rest) := h
    subst htriple
    rw [stringBody, run_bind_ok (loop_done (run_stringRound_quotes _ _ hsplit)),
      run_token hm hsplit.ahead, List.append_assoc]
    rfl
  | case5 read seen c cs hback htriple hquotes ih =>
    have hgoes : if triple then ¬ (c = '"' ∧ ['"', '"'] <+: cs) else c ≠ '\n' ∧ c ≠ '"' := by
      rw [if_pos htriple]
      exact hquotes
    exact (hchar h hback hgoes).trans (ih (hnext h))
  | case6 read seen cs htriple hback =>
    obtain rfl : triple = false := Bool.eq_false_iff.2 htriple
    rw [stringBody, run_bind_error (loop_halt (run_stringRound_line _ hm h))]
    rfl
  | case7 read seen cs htriple hback hline =>
    obtain rfl : triple = false := Bool.eq_false_iff.2 htriple
    rw [stringBody, run_bind_ok (loop_done (run_stringRound_quote _ _ h)), run_token hm h.next,
      List.append_assoc]
    rfl
  | case8 read seen c cs hback htriple hline hquote ih =>
    have hgoes : if triple then ¬ (c = '"' ∧ ['"', '"'] <+: cs) else c ≠ '\n' ∧ c ≠ '"' := by
      rw [if_neg htriple]
      exact ⟨hline, hquote⟩
    exact (hchar h hback hgoes).trans (ih (hnext h))

/-- A scanner reads a string as `readString` does. -/
theorem run_string (h : Splits whole taken ('"' :: cs)) :
    (string (Position.start.past taken)).run (past whole taken) =
      outcome whole taken (tokenOf taken) (readString cs) := by
  unfold string
  rw [run_bind_ok (run_isAhead h tripleQuotes)]
  fun_cases readString cs with
  | case1 cs =>
    have hsplit : Splits whole taken (tripleQuotes ++ cs) := h
    rw [run_bind_ok (run_advanceBy _ hsplit (by simp [tripleQuotes]))]
    exact run_stringBody [] tripleQuotes.reverse h hsplit.ahead
  | case2 cs hother =>
    have hsingle : ¬ tripleQuotes.isPrefixOf ('"' :: cs) = true := by
      rw [isPrefixOf_tripleQuotes]
      rintro ⟨-, rest, rfl⟩
      exact hother rest rfl
    rw [Bool.not_eq_true] at hsingle
    have hsplit : Splits whole taken (['"'] ++ cs) := h
    rw [hsingle, run_bind_ok (run_advanceBy (if false = true then 3 else 1) hsplit rfl)]
    exact run_stringBody [] ['"'] h h.next

theorem run_endChar {before opening : List Char} {value : Char}
    (hm : Splits whole before opening) (h : Splits whole (before ++ taken) cs) :
    StateT.run (do
      if (← peek? 0) = some '\'' then
        let _ ← advance
        token (.char value.toString) (Position.start.past before)
      else failFrom (Position.start.past before) .invalidCharacter)
      (past whole (before ++ taken)) =
      outcome whole before (tokenOf before) (endChar opening value taken cs) := by
  fun_cases endChar opening value taken cs with
  | case1 rest =>
    rw [run_bind_first h, if_pos rfl, run_bind_ok (run_advance h), run_token hm h.next,
      List.append_assoc]
    rfl
  | case2 cs hother =>
    rw [run_bind_head h, if_neg (head?_ne_some hother), run_failFrom hm h]
    rfl

/-- The value of a character literal may be written as an escape. -/
theorem run_charValue_escape (m : Position) (h : Splits whole taken ('\\' :: cs)) :
    (charValue m).run (past whole taken) =
      outcome whole (taken ++ ['\\']) (·.value) (readEscape cs) := by
  unfold charValue
  rw [run_bind_first h]
  dsimp only
  rw [if_pos rfl, run_escape h]

/-- A scanner reads a character literal as `readChar` does. -/
theorem run_char (h : Splits whole taken ('\'' :: cs)) :
    (char (Position.start.past taken)).run (past whole taken) =
      outcome whole taken (tokenOf taken) (readChar cs) := by
  unfold char
  rw [run_bind_ok (run_advance h)]
  fun_cases readChar cs with
  | case1 rest e hescape =>
    have hvalue := run_charValue_escape (Position.start.past taken) h.next
    rw [hescape, outcome, List.append_assoc, List.append_assoc] at hvalue
    have hsplit : Splits whole taken (('\'' :: '\\' :: e.text) ++ e.rest) := by
      rwa [List.cons_append, List.cons_append, ← Cut.source, (readEscape_takes hescape).source]
    rw [run_bind_ok hvalue]
    exact run_endChar h hsplit.ahead
  | case2 rest fault hescape =>
    have hvalue := run_charValue_escape (Position.start.past taken) h.next
    rw [hescape] at hvalue
    rw [run_bind_error hvalue]
    rfl
  | case3 c rest hback hend =>
    have hvalue : (charValue (Position.start.past taken)).run (past whole (taken ++ ['\''])) =
        .error (.report (.ofFault whole ⟨.invalidCharacter, '\'' :: c :: rest, c :: rest⟩)) := by
      unfold charValue
      rw [run_bind_first h.next]
      dsimp only
      rw [if_neg hback, if_pos hend, run_failFrom h h.next]
    rw [run_bind_error hvalue]
    rfl
  | case4 c rest hback hend =>
    have hvalue : (charValue (Position.start.past taken)).run (past whole (taken ++ ['\''])) =
        .ok (c, past whole (taken ++ ['\'', c])) := by
      unfold charValue
      rw [run_bind_first h.next]
      dsimp only
      rw [if_neg hback, if_neg hend, run_bind_ok (run_advance h.next), List.append_assoc]
      rfl
    have hsplit : Splits whole taken (['\'', c] ++ rest) := h
    rw [run_bind_ok hvalue, run_endChar h hsplit.ahead]
  | case5 =>
    have hvalue : (charValue (Position.start.past taken)).run (past whole (taken ++ ['\''])) =
        .error (.report (.ofFault whole ⟨.invalidCharacter, ['\''], []⟩)) := by
      unfold charValue
      rw [run_bind_first_end h.next]
      dsimp only
      rw [run_failFrom h h.next]
    rw [run_bind_error hvalue]
    rfl

end Scanner

end ElmIntake
