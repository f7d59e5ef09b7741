import ElmIntake.Proofs.Token.Printing
import ElmIntake.Syntax.Grammar
import Mathlib.Data.List.TakeWhile

/-! # Words

    What names, names of modules and operators look like, said without the readers,
    and that each of them, when it stands alone, is a single token. -/

namespace ElmIntake

/-! ## Spelling -/

/-- Does a word begin with such a character and go on with characters of names? -/
def isWord (begins : Char → Bool) (word : String) : Bool :=
  word.toList.head?.any begins && word.toList.all isNameChar

/-- Is a word the name of a value: without dots, not capitalised, and neither a
    keyword nor the wildcard? -/
def isLowerWord (word : String) : Bool :=
  isWord (fun c => (Text.isAlphabetic c || c == '_') && !Text.isUppercase c) word &&
    word != "_" && (Keyword.ofText? word).isNone

/-- Is a word the name of a type or a segment of the name of a module: without dots,
    and capitalised? -/
def isUpperWord (word : String) : Bool :=
  isWord (fun c => Text.isAlphabetic c && Text.isUppercase c) word

/-- Are these the segments of the name of a module? There is at least one. -/
def areSegments (segments : List String) : Bool :=
  !segments.isEmpty && segments.all isUpperWord

/-- Is a word made of symbols, and not the beginning of a line comment? -/
def isSymbolWord (word : String) : Bool :=
  !word.toList.isEmpty && word.toList.all isSymbol && !List.isPrefixOf ['-', '-'] word.toList

/-- Is a word an operator, and none of the signs `=`, `:`, `|` and `->`? -/
def isOperatorWord (word : String) : Bool :=
  isSymbolWord word && word ∉ ["=", ":", "|", "->"]

/-- Is a word one that a fixity may be declared for? The bar is one, too. -/
def isInfixWord (word : String) : Bool :=
  isSymbolWord word && word ∉ ["=", ":", "->"]

section

variable {c : Char} {cs : List Char} {kind : TokenKind} {word : String}

theorem exists_of_isWord {begins : Char → Bool} (h : isWord begins word = true) :
    ∃ c cs, word.toList = c :: cs ∧ begins c = true ∧ ∀ d ∈ c :: cs, isNameChar d = true := by
  unfold isWord at h
  rw [Bool.and_eq_true, List.all_eq_true] at h
  obtain ⟨hbegins, hall⟩ := h
  cases hword : word.toList with
  | nil =>
    rw [hword] at hbegins
    cases hbegins
  | cons c cs =>
    rw [hword] at hbegins hall
    exact ⟨c, cs, rfl, hbegins, hall⟩

theorem exists_of_areSegments {segments : List String} (h : areSegments segments = true) :
    ∃ word words, segments = word :: words ∧ isUpperWord word = true ∧
      ∀ word ∈ words, isUpperWord word = true := by
  unfold areSegments at h
  rw [Bool.and_eq_true, List.all_eq_true] at h
  obtain ⟨hne, hall⟩ := h
  cases segments with
  | nil => cases hne
  | cons word words => exact ⟨word, words, rfl, List.forall_mem_cons.1 hall⟩

/-! ## Single tokens -/

/-- A token that is read of the whole of its text is a part. -/
theorem Part.lexes_ofKind (htext : kind.text.toList = c :: cs)
    (h : readPiece c cs = .ok ⟨some kind, c :: cs, []⟩) : (ofKind kind).lexes = true := by
  have hcuts : Cuts (ofKind kind).text.toList [⟨some kind, c :: cs⟩] := by
    unfold ofKind
    rw [htext]
    exact .piece h .done
  exact Part.lexes_of_cuts hcuts rfl (by simp [Piece.isPlain])

theorem Part.lexes_keyword (keyword : Keyword) : (ofKind (.keyword keyword)).lexes = true := by
  cases keyword <;> decide +kernel

/-- The marks that items are made of. -/
def Part.marks : List TokenKind :=
  [.opening .paren, .closing .paren, .comma, .equals, .colon, .pipe, .operator ".."]

theorem Part.lexes_mark : ∀ kind ∈ marks, (ofKind kind).lexes = true := by decide +kernel

theorem Part.lexes_digit (digit : Fin 10) :
    (ofKind (.number (toString digit))).lexes = true := by
  revert digit
  decide +kernel

/-! ### Names -/

theorem isAlpha_of_isDigit (h : c.isDigit = true) : c.isAlpha = false := by
  unfold Char.isDigit at h
  unfold Char.isAlpha Char.isUpper Char.isLower
  simp [UInt32.le_iff_toNat_le] at h ⊢
  omega

theorem lt_of_isDigit (h : c.isDigit = true) : c.toNat < 128 := by
  simp [Char.isDigit, UInt32.le_iff_toNat_le] at h
  omega

theorem isDigit_of_letter (hc : (Text.isAlphabetic c || c == '_') = true) :
    c.isDigit = false := by
  rw [Bool.eq_false_iff]
  intro hdigit
  have halpha : Text.isAlphabetic c = false := by
    unfold Text.isAlphabetic
    rw [Text.hasProperty_of_ascii _ _ (lt_of_isDigit hdigit)]
    exact isAlpha_of_isDigit hdigit
  rw [halpha, Bool.false_or, beq_iff_eq] at hc
  rw [hc] at hdigit
  exact absurd hdigit (by decide)

/-- A letter begins a name, whatever follows. -/
theorem readPiece_letter (hc : (Text.isAlphabetic c || c == '_') = true) (cs : List Char) :
    readPiece c cs = .ok ⟨some (readName (c :: cs)).value, (readName (c :: cs)).text,
      (readName (c :: cs)).rest⟩ := by
  -- No letter starts a blank or a comment.
  have hne : ∀ d ∈ [' ', '\n', '\r', '\t', '-', '\x7b'], c ≠ d := by
    intro d hd hcd
    have hnone : [' ', '\n', '\r', '\t', '-', '\x7b'].all
        (fun d => !(Text.isAlphabetic d || d == '_')) = true := by decide
    have hletter := List.all_eq_true.1 hnone d hd
    rw [← hcd, hc] at hletter
    cases hletter
  have hblank : ¬ (c = ' ' ∨ c = '\n' ∨ c = '\r') := by
    rintro (h | h | h)
    all_goals exact hne _ (by decide) h
  have htoken : readToken c cs = .ok (readName (c :: cs)) := by
    unfold readToken
    rw [isDigit_of_letter hc, if_neg Bool.false_ne_true, if_pos hc]
  unfold readPiece
  rw [if_neg hblank, if_neg (hne '\t' (by decide))]
  split
  · exact absurd rfl (hne '-' (by decide))
  · exact absurd rfl (hne '\x7b' (by decide))
  · exact absurd rfl (hne '\x7b' (by decide))
  · rw [htoken]
    rfl

theorem Part.lexes_lowerName (h : isLowerWord word = true) :
    (ofKind (.lowerName word)).lexes = true := by
  unfold isLowerWord at h
  simp only [Bool.and_eq_true, bne_iff_ne, Option.isNone_iff_eq_none] at h
  obtain ⟨⟨hword, hwildcard⟩, hkeyword⟩ := h
  obtain ⟨c, cs, htext, hc, hall⟩ := exists_of_isWord hword
  simp only [Bool.and_eq_true, Bool.not_eq_true'] at hc
  have hname : c :: cs ≠ ['_'] := by
    intro hcs
    rw [hcs] at htext
    exact hwildcard (String.toList_inj.1 htext)
  have htake : (c :: cs).takeWhile isNameChar = c :: cs := List.takeWhile_eq_self_iff.2 hall
  have hdrop : (c :: cs).dropWhile isNameChar = [] := List.dropWhile_eq_nil_iff.2 hall
  have hread : readName (c :: cs) = ⟨.lowerName word, c :: cs, []⟩ := by
    unfold readName
    dsimp only
    rw [htake, hdrop, if_neg hname]
    rw [List.head?_cons, Option.any_some, hc.2, ← htext]
    simp [readDotted, Cut.after, nameKind, hkeyword]
  refine lexes_ofKind htext ?_
  rw [readPiece_letter hc.1, hread]

/-! ### Names of modules -/

/-- Some words, each one behind a dot. -/
def dotted (words : List String) : List Char := words.flatMap fun word => '.' :: word.toList

theorem toList_intercalate_dots (word : String) (words : List String) :
    (".".intercalate (word :: words)).toList = word.toList ++ dotted words := by
  rw [String.toList_intercalate]
  induction words generalizing word with
  | nil => simp [dotted]
  | cons next words ih =>
    rw [List.map_cons, List.map_cons, List.intercalate_cons_cons, ← List.map_cons, ih]
    simp [dotted]

/-- A segment goes on up to the dot behind it. -/
theorem takeWhile_dotted (hcs : ∀ d ∈ cs, isNameChar d = true) (words : List String) :
    (cs ++ dotted words).takeWhile isNameChar = cs := by
  rw [List.takeWhile_append_of_pos hcs]
  cases words with
  | nil => simp [dotted]
  | cons word words =>
    have hdot : isNameChar '.' = false := by decide
    simp [dotted, hdot]

theorem dropWhile_dotted (hcs : ∀ d ∈ cs, isNameChar d = true) (words : List String) :
    (cs ++ dotted words).dropWhile isNameChar = dotted words := by
  rw [List.dropWhile_append_of_pos hcs]
  cases words with
  | nil => simp [dotted]
  | cons word words =>
    have hdot : isNameChar '.' = false := by decide
    simp [dotted, hdot]

theorem readDotted_dotted {words : List String} (h : ∀ word ∈ words, isUpperWord word = true) :
    readDotted true (dotted words) = ⟨true, dotted words, []⟩ := by
  induction words with
  | nil => simp [dotted, readDotted]
  | cons word words ih =>
    obtain ⟨hword, hwords⟩ := List.forall_mem_cons.1 h
    obtain ⟨c, cs, htext, hc, hall⟩ := exists_of_isWord hword
    rw [Bool.and_eq_true] at hc
    have hcs := (List.forall_mem_cons.1 hall).2
    have hdotted : dotted (word :: words) = '.' :: c :: (cs ++ dotted words) := by
      simp [dotted, htext]
    rw [hdotted, readDotted, if_pos (by simp [hc.1]), takeWhile_dotted hcs, dropWhile_dotted hcs,
      hc.2, Bool.and_self, ih hwords]
    simp [Cut.after]

theorem Part.lexes_moduleName {segments : List String} (h : areSegments segments = true) :
    (ofKind (.upperName (".".intercalate segments))).lexes = true := by
  obtain ⟨word, words, rfl, hword, hwords⟩ := exists_of_areSegments h
  obtain ⟨c, cs, htext, hc, hname⟩ := exists_of_isWord hword
  rw [Bool.and_eq_true] at hc
  have hspelt : (TokenKind.upperName (".".intercalate (word :: words))).text.toList =
      c :: (cs ++ dotted words) := by
    show (".".intercalate (word :: words)).toList = _
    rw [toList_intercalate_dots, htext]
    rfl
  have hletter : (Text.isAlphabetic c || c == '_') = true := by rw [hc.1, Bool.true_or]
  have hwildcard : c :: cs ≠ ['_'] := by
    intro hcs
    have hupper := hc.2
    rw [(List.cons.inj hcs).1] at hupper
    exact absurd hupper (by decide)
  have htake := takeWhile_dotted hname words
  have hdrop := dropWhile_dotted hname words
  rw [List.cons_append] at htake hdrop
  have hread : readName (c :: (cs ++ dotted words)) =
      ⟨.upperName (".".intercalate (word :: words)), c :: (cs ++ dotted words), []⟩ := by
    unfold readName
    dsimp only
    rw [htake, hdrop, if_neg hwildcard, List.head?_cons, Option.any_some, hc.2,
      readDotted_dotted hwords]
    simp only [Cut.after, nameKind, if_pos, List.cons_append]
    rw [← hspelt]
    show Cut.mk (TokenKind.upperName (String.ofList _)) _ _ = _
    rw [TokenKind.text, String.ofList_toList]
  refine lexes_ofKind hspelt ?_
  rw [readPiece_letter hletter, hread]

theorem Part.lexes_upperName (h : isUpperWord word = true) :
    (ofKind (.upperName word)).lexes = true := by
  have hsegments : areSegments [word] = true := by simp [areSegments, h]
  simpa using lexes_moduleName hsegments

/-! ### Dots -/

theorem isDotted_of_isWord {begins : Char → Bool} (h : isWord begins word = true) :
    Reader.isDotted word = false := by
  obtain ⟨c, cs, htext, -, hall⟩ := exists_of_isWord h
  unfold Reader.isDotted
  rw [htext, ← Bool.not_eq_true, List.contains_iff_mem]
  intro hdot
  exact absurd (hall _ hdot) (by decide)

theorem isDotted_of_isLowerWord (h : isLowerWord word = true) : Reader.isDotted word = false := by
  unfold isLowerWord at h
  rw [Bool.and_eq_true, Bool.and_eq_true] at h
  exact isDotted_of_isWord h.1.1

theorem isDotted_of_isUpperWord (h : isUpperWord word = true) : Reader.isDotted word = false :=
  isDotted_of_isWord h

/-! ### Operators -/

theorem readPiece_symbol (hc : isSymbol c = true) (hline : ¬ (c = '-' ∧ cs.head? = some '-')) :
    readPiece c cs = .ok ⟨some (symbolKind (c :: cs.takeWhile isSymbol)),
      c :: cs.takeWhile isSymbol, cs.dropWhile isSymbol⟩ := by
  -- No symbol starts anything else, as can be seen one by one.
  have hother : ['+', '-', '*', '/', '=', '.', '<', '>', ':', '&', '|', '^', '?', '%', '!',
      '~'].all (fun d => decide (¬ (d = ' ' ∨ d = '\n' ∨ d = '\r') ∧ d ≠ '\t' ∧ d ≠ '\x7b' ∧
        d.isDigit = false ∧ (Text.isAlphabetic d || d == '_') = false ∧ d ≠ '"' ∧ d ≠ '\'' ∧
        d ≠ '[' ∧ mark? d = none)) = true := by decide
  obtain ⟨hblank, htab, hbrace, hdigit, hletter, hstring, hchar, hsquare, hmark⟩ :=
    of_decide_eq_true (List.all_eq_true.1 hother c (of_decide_eq_true hc))
  have htoken : readToken c cs = .ok ⟨symbolKind (c :: cs.takeWhile isSymbol),
      c :: cs.takeWhile isSymbol, cs.dropWhile isSymbol⟩ := by
    unfold readToken
    rw [hdigit, hletter, if_neg Bool.false_ne_true, if_neg Bool.false_ne_true, if_neg hstring,
      if_neg hchar]
    split
    · exact absurd rfl hsquare
    · unfold readMark
      rw [hmark]
      exact if_pos hc
  unfold readPiece
  rw [if_neg hblank, if_neg htab]
  split
  · exact absurd ⟨rfl, rfl⟩ hline
  · exact absurd rfl hbrace
  · exact absurd rfl hbrace
  · rw [htoken]
    rfl

theorem toList_text_symbolKind (symbols : List Char) :
    (symbolKind symbols).text.toList = symbols := by
  unfold symbolKind
  split
  · next h => rw [h]; rfl
  split
  · next h => rw [h]; rfl
  split
  · next h => rw [h]; rfl
  split
  · next h => rw [h]; rfl
  · exact String.toList_ofList

theorem Part.lexes_symbols (h : isSymbolWord word = true) :
    (ofKind (symbolKind word.toList)).lexes = true := by
  unfold isSymbolWord at h
  simp only [Bool.and_eq_true, List.all_eq_true, Bool.not_eq_true'] at h
  obtain ⟨⟨hne, hall⟩, hline⟩ := h
  cases hword : word.toList with
  | nil =>
    rw [hword] at hne
    cases hne
  | cons c cs =>
    rw [hword] at hall hline
    obtain ⟨hc, hcs⟩ := List.forall_mem_cons.1 hall
    have hcomment : ¬ (c = '-' ∧ cs.head? = some '-') := by
      rintro ⟨rfl, hhead⟩
      obtain ⟨rest, rfl⟩ := List.head?_eq_some_iff.1 hhead
      simp at hline
    have hread := readPiece_symbol hc hcomment
    rw [List.takeWhile_eq_self_iff.2 hcs, List.dropWhile_eq_nil_iff.2 hcs] at hread
    exact lexes_ofKind (toList_text_symbolKind _) hread

theorem symbolKind_of_isOperatorWord (h : isOperatorWord word = true) :
    symbolKind word.toList = .operator word := by
  unfold isOperatorWord at h
  simp only [Bool.and_eq_true, decide_eq_true_eq, List.mem_cons, List.not_mem_nil, or_false,
    not_or] at h
  obtain ⟨-, hequals, hcolon, hpipe, harrow⟩ := h
  have hne : ∀ (sign : String) (symbols : List Char), sign.toList = symbols → word ≠ sign →
      word.toList ≠ symbols := by
    rintro sign symbols rfl hsign htext
    exact hsign (String.toList_inj.1 htext)
  unfold symbolKind
  rw [if_neg (hne "=" ['='] rfl hequals), if_neg (hne ":" [':'] rfl hcolon),
    if_neg (hne "|" ['|'] rfl hpipe), if_neg (hne "->" ['-', '>'] rfl harrow),
    String.ofList_toList]

theorem isSymbolWord_of_isInfixWord (h : isInfixWord word = true) : isSymbolWord word = true := by
  unfold isInfixWord at h
  rw [Bool.and_eq_true] at h
  exact h.1

theorem operatorText?_symbolKind (h : isInfixWord word = true) :
    Reader.operatorText? (symbolKind word.toList) = some word := by
  by_cases hpipe : word = "|"
  · rw [hpipe]
    rfl
  · have hoperator : isOperatorWord word = true := by
      unfold isInfixWord at h
      unfold isOperatorWord
      simp only [Bool.and_eq_true, decide_eq_true_eq, List.mem_cons, List.not_mem_nil, or_false,
        not_or] at h ⊢
      exact ⟨h.1, h.2.1, h.2.2.1, hpipe, h.2.2.2⟩
    rw [symbolKind_of_isOperatorWord hoperator]
    rfl

theorem Part.lexes_operator (h : isOperatorWord word = true) :
    (ofKind (.operator word)).lexes = true := by
  rw [← symbolKind_of_isOperatorWord h]
  unfold isOperatorWord at h
  rw [Bool.and_eq_true] at h
  exact lexes_symbols h.1

end

end ElmIntake
