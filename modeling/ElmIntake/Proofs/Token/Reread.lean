import ElmIntake.Proofs.Token.Literals
import ElmIntake.Proofs.Token.Verbatim

/-! # Printed tokens are read back

    Every token of a source, printed by itself and put before a text that may follow it,
    is read there as the token that it was. There are two exceptions. Some literals are
    **garbled** when they are printed (`TokenKind.isGarbled`): what is printed of them is
    no literal, and nothing is read there. And a brace before a dash opens a comment, which
    is why `TokenKind.MayPrecede` asks more of brackets that open than that something else
    follows. -/

namespace ElmIntake

namespace TokenKind

/-- Is the token a literal that is printed as something that is none? -/
def isGarbled : TokenKind → Bool
  | string value => value.toList.any (· == '\x00')
  | char value => value.toList.any (· ∈ unquotable)
  | _ => false

/-- May the text stand directly behind the token? -/
def MayPrecede (rest : List Char) : TokenKind → Prop
  | opening .paren => True
  | opening .square => ¬ ['g', 'l', 's', 'l', '|'] <+: rest
  | opening .brace => rest.head? ≠ some '-'
  | _ => Ends rest

/-- Is there a source with such a token? -/
def IsToken (kind : TokenKind) : Prop :=
  ∃ c cs cut, readPiece c cs = .ok cut ∧ cut.value = some kind

/-- Is the token read back from its text, before the text `rest`? -/
def IsReadBack (rest : List Char) (kind : TokenKind) : Prop :=
  ∃ c cs, kind.text.toList ++ rest = c :: cs ∧
    readPiece c cs = .ok ⟨some kind, kind.text.toList, rest⟩

/-- Can nothing be read from the text of the token, before the text `rest`? -/
def IsRefused (rest : List Char) (kind : TokenKind) : Prop :=
  ∃ c cs fault, kind.text.toList ++ rest = c :: cs ∧ readPiece c cs = .error fault

end TokenKind

section

variable {c : Char} {cs rest : List Char} {cut : Cut (Option TokenKind)} {token : Cut TokenKind}
  {kind : TokenKind}

/-! ## Tokens among pieces -/

/-- Does a source that begins with the character `c` begin neither with a blank nor with a
    comment? -/
structure StartsToken (c : Char) (cs : List Char) : Prop where
  blank : ¬ (c = ' ' ∨ c = '\n' ∨ c = '\r')
  tab : c ≠ '\t'
  line : ¬ (c = '-' ∧ cs.head? = some '-')
  block : ¬ (c = '\x7b' ∧ cs.head? = some '-')

theorem StartsToken.readPiece_eq (h : StartsToken c cs) :
    readPiece c cs =
      (readToken c cs).map fun token => ⟨some token.value, token.text, token.rest⟩ := by
  unfold readPiece
  rw [if_neg h.blank, if_neg h.tab]
  split
  · exact absurd ⟨rfl, rfl⟩ h.line
  · exact absurd ⟨rfl, rfl⟩ h.block
  · exact absurd ⟨rfl, rfl⟩ h.block
  · rfl

/-- A token that is no documentation comment starts as one. -/
theorem startsToken_of_readPiece (h : readPiece c cs = .ok cut) (hkind : cut.value = some kind) :
    (∃ more inner, readNested [] 0 more = some inner ∧ kind = .doc (String.ofList inner.text)) ∨
      StartsToken c cs ∧ ∃ token, readToken c cs = .ok token ∧ token.value = kind := by
  -- Blanks and plain comments have no value, and what the reader refuses is no cut.
  unfold readPiece at h
  split at h
  · cases h
    cases hkind
  next hblank =>
  split at h
  · cases h
  next htab =>
  split at h
  · cases h
    cases hkind
  · next cs _ _ =>
    unfold readDocComment at h
    split at h
    · next inner hinner =>
      cases h
      cases hkind
      exact .inl ⟨_, inner, hinner, rfl⟩
    · cases h
  · unfold readPlainComment at h
    split at h <;> cases h
    cases hkind
  · next hline _ hblock =>
    have hstarts : StartsToken c cs := by
      refine ⟨hblank, htab, ?_, ?_⟩
      · rintro ⟨rfl, hhead⟩
        obtain ⟨more, rfl⟩ := List.head?_eq_some_iff.1 hhead
        exact hline more rfl rfl
      · rintro ⟨rfl, hhead⟩
        obtain ⟨more, rfl⟩ := List.head?_eq_some_iff.1 hhead
        exact hblock more rfl rfl
    cases htoken : readToken c cs with
    | error fault =>
      rw [htoken] at h
      cases h
    | ok token =>
      rw [htoken] at h
      cases h
      exact .inr ⟨hstarts, token, rfl, Option.some.inj hkind⟩

theorem StartsToken.isReadBack (h : StartsToken c cs) (htext : kind.text.toList ++ rest = c :: cs)
    (hread : readToken c cs = .ok ⟨kind, kind.text.toList, rest⟩) : kind.IsReadBack rest := by
  refine ⟨c, cs, htext, ?_⟩
  rw [h.readPiece_eq, hread]
  rfl

theorem StartsToken.isRefused {fault : LexFault} (h : StartsToken c cs)
    (htext : kind.text.toList ++ rest = c :: cs) (hread : readToken c cs = .error fault) :
    kind.IsRefused rest := by
  refine ⟨c, cs, fault, htext, ?_⟩
  rw [h.readPiece_eq, hread]
  rfl

/-! ## Kinds of tokens -/

theorem isReadBack_doc {more : List Char} {inner : Cut Unit}
    (h : readNested [] 0 more = some inner) (rest : List Char) :
    (TokenKind.doc (String.ofList inner.text)).IsReadBack rest := by
  have htext : (TokenKind.doc (String.ofList inner.text)).text.toList =
      '\x7b' :: '-' :: '|' :: inner.text ++ ['-', '\x7d'] := by
    simp [TokenKind.text]
  refine ⟨'\x7b', '-' :: '|' :: (inner.text ++ '-' :: '\x7d' :: rest), by simp [htext], ?_⟩
  show readDocComment (inner.text ++ '-' :: '\x7d' :: rest) = _
  unfold readDocComment
  rw [readNested_again h rest, htext]
  rfl

/-- Characters that begin something else than a token, or may do so. -/
def nonStarters : List Char := [' ', '\n', '\r', '\t', '-', '\x7b']

theorem startsToken_of_not_mem (h : c ∉ nonStarters) (cs : List Char) : StartsToken c cs := by
  simp only [nonStarters, List.mem_cons, List.not_mem_nil, or_false, not_or] at h
  obtain ⟨hspace, hfeed, hreturn, htab, hdash, hbrace⟩ := h
  refine ⟨?_, htab, fun hline => hdash hline.1, fun hblock => hbrace hblock.1⟩
  rintro (heq | heq | heq)
  · exact hspace heq
  · exact hfeed heq
  · exact hreturn heq

theorem startsToken_of_isDigit (h : c.isDigit = true) (cs : List Char) : StartsToken c cs := by
  apply startsToken_of_not_mem
  intro hc
  have hnone : nonStarters.all (fun d => !d.isDigit) = true := by decide
  have hdigit := List.all_eq_true.1 hnone c hc
  rw [h] at hdigit
  cases hdigit

/-- A number that is not hexadecimal does not begin like one that is. -/
theorem readNumber_of_readDecimal (h : readDecimal cs = .ok token) :
    readNumber cs = .ok token := by
  -- The letter of a hexadecimal number would be a name behind the digit, which is refused.
  have hletter : ∀ x ∈ ['x', 'X'], ∀ more, cs ≠ '0' :: x :: more := by
    rintro x hx more rfl
    have hx' : x.isDigit = false ∧ x ≠ '.' ∧ (x == 'e' || x == 'E') = false ∧
        isNameChar x = true := by
      rcases List.mem_pair.1 hx with rfl | rfl
      · decide
      · decide
    obtain ⟨hdigit, hdot, hmark, hname⟩ := hx'
    have hfraction : readFraction (x :: more) = ⟨(), [], x :: more⟩ :=
      readFraction_of_stops (stops_cons (by simpa using hdot))
    have hexponent : readExponent (x :: more) = ⟨(), [], x :: more⟩ :=
      readExponent_of_stops (stops_cons hmark)
    have hdrop : ('0' :: x :: more).dropWhile Char.isDigit = x :: more := by
      rw [List.dropWhile_cons_of_pos (by decide), List.dropWhile_cons_of_neg (by simp [hdigit])]
    unfold readDecimal at h
    dsimp only at h
    rw [hdrop, hfraction] at h
    dsimp only at h
    rw [hexponent] at h
    unfold endNumber at h
    rw [if_pos (by simpa using hname)] at h
    cases h
  rw [readNumber]
  · exact h
  · exact fun more heq => hletter 'x' (by decide) more heq
  · exact fun more heq => hletter 'X' (by decide) more heq

theorem value_of_readDecimal (h : readDecimal cs = .ok token) :
    token.value = .number (String.ofList token.text) := by
  unfold readDecimal endNumber at h
  dsimp only at h
  split at h <;> cases h
  rfl

theorem value_of_readNumber (h : readNumber cs = .ok token) :
    ∃ digits, token.value = .number digits := by
  have hhex : ∀ {x cs}, readHexNumber x cs = .ok token →
      ∃ digits, token.value = .number digits := by
    intro x cs h
    unfold readHexNumber endNumber at h
    dsimp only at h
    split at h
    · cases h
    · split at h <;> cases h
      exact ⟨_, rfl⟩
  unfold readNumber at h
  split at h
  · exact hhex h
  · exact hhex h
  · exact ⟨_, value_of_readDecimal h⟩

theorem isReadBack_number (hc : c.isDigit = true) (h : readNumber (c :: cs) = .ok token)
    (hrest : Ends rest) : token.value.IsReadBack rest := by
  have hdone : ∀ d ds, d.isDigit = true → token.value.text.toList = d :: ds →
      readNumber (d :: ds ++ rest) = .ok ⟨token.value, token.value.text.toList, rest⟩ →
      token.value.IsReadBack rest := by
    intro d ds hd htext hread
    refine (startsToken_of_isDigit hd (ds ++ rest)).isReadBack (by rw [htext]; rfl) ?_
    unfold readToken
    rw [if_pos hd]
    exact hread
  have hhex : ∀ {x more}, readHexNumber x more = .ok token → token.value.IsReadBack rest := by
    intro x more h
    obtain ⟨digits, htext, hread⟩ := readHexNumber_again h hrest
    exact hdone '0' ('x' :: digits) (by decide) htext hread
  unfold readNumber at h
  split at h
  · exact hhex h
  · exact hhex h
  · have hagain := readDecimal_again h hrest
    obtain ⟨hsource, hne⟩ := readDecimal_takes hc h
    have htext : token.value.text.toList = token.text := by
      rw [value_of_readDecimal h]
      exact String.toList_ofList
    -- The first digit is that of the source.
    obtain ⟨ds, hds⟩ : ∃ ds, token.text = c :: ds := by
      cases hcut : token.text with
      | nil => exact absurd hcut hne
      | cons d ds =>
        rw [Cut.source, hcut] at hsource
        exact ⟨ds, by rw [(List.cons.inj hsource).1]⟩
    rw [hds] at htext
    rw [htext] at hagain
    refine hdone c ds hc htext ?_
    rw [htext]
    exact readNumber_of_readDecimal hagain

/-- A name is neither a literal nor a bracket. -/
theorem readName_cases (cs : List Char) :
    (readName cs).value.isVerbatim = true ∧ (readName cs).value.isOpening = false ∧
      (readName cs).value.isGarbled = false := by
  unfold readName
  dsimp only
  split
  · exact ⟨rfl, rfl, rfl⟩
  · unfold nameKind
    split
    · exact ⟨rfl, rfl, rfl⟩
    · split <;> exact ⟨rfl, rfl, rfl⟩

theorem isReadBack_name (hc : (Text.isAlphabetic c || c == '_') = true) (hrest : Ends rest) :
    (readName (c :: cs)).value.IsReadBack rest := by
  have htext := readName_isVerbatim (c :: cs) (readName_cases _).1
  have hagain := readName_again hrest (c :: cs)
  have hname : isNameChar c = true := by
    rcases Bool.or_eq_true_iff.1 hc with halpha | hunder
    · simp [isNameChar, halpha]
    · simp [isNameChar, hunder]
  obtain ⟨hsource, hne⟩ := readName_takes hname
  generalize readName (c :: cs) = cut at *
  rw [Cut.again, htext] at hagain
  cases hcut : cut.value.text.toList with
  | nil => exact absurd (htext.trans hcut) hne
  | cons d ds =>
    rw [Cut.source, htext, hcut] at hsource
    obtain rfl : d = c := (List.cons.inj hsource).1
    rw [hcut] at hagain
    refine ⟨d, ds ++ rest, by rw [hcut]; rfl, ?_⟩
    rw [readPiece_letter hc, ← List.cons_append, hagain, hcut]

/-! ### Literals -/

theorem value_of_readString (h : readString cs = .ok token) :
    ∃ value, token.value = .string value := by
  have hbody : ∀ {opening triple read seen cs},
      readStringBody opening triple read seen cs = .ok token →
      ∃ value, token.value = .string value := by
    intro opening triple read seen cs h
    fun_induction readStringBody opening triple read seen cs with
    | case1 => cases h
    | case2 _ _ _ _ _ ih => exact ih h
    | case3 => cases h
    | case4 =>
      cases h
      exact ⟨_, rfl⟩
    | case5 _ _ _ _ _ _ _ ih => exact ih h
    | case6 => cases h
    | case7 =>
      cases h
      exact ⟨_, rfl⟩
    | case8 _ _ _ _ _ _ _ _ ih => exact ih h
  unfold readString at h
  split at h
  · exact hbody h
  · exact hbody h

theorem value_of_readChar (h : readChar cs = .ok token) :
    ∃ c : Char, token.value = .char c.toString := by
  have hend : ∀ {opening c seen rest}, endChar opening c seen rest = .ok token →
      ∃ c : Char, token.value = .char c.toString := by
    intro opening c seen rest h
    unfold endChar at h
    split at h <;> cases h
    exact ⟨c, rfl⟩
  unfold readChar at h
  dsimp only at h
  split at h
  · split at h
    · exact hend h
    · cases h
  · split at h
    · cases h
    · exact hend h
  · cases h

theorem toList_text_string (value : String) (rest : List Char) :
    (TokenKind.string value).text.toList ++ rest =
      '"' :: (value.toList.flatMap Text.quoteChar ++ '"' :: rest) := by
  simp [TokenKind.text, Text.quote]

theorem toList_text_char (c : Char) (rest : List Char) :
    (TokenKind.char c.toString).text.toList ++ rest = '\'' :: c :: '\'' :: rest := by
  simp [TokenKind.text]

theorem isReadBack_string {value : String}
    (hvalue : (TokenKind.string value).isGarbled = false) (hrest : Ends rest) :
    (TokenKind.string value).IsReadBack rest := by
  have hnul : '\x00' ∉ value.toList := by
    intro hmem
    have hgarbled : (TokenKind.string value).isGarbled = true :=
      List.any_eq_true.2 ⟨_, hmem, by decide⟩
    rw [hvalue] at hgarbled
    cases hgarbled
  have hread := readString_quote hnul hrest
  have htext := toList_text_string value []
  rw [List.append_nil] at htext
  apply (startsToken_of_not_mem (by decide) _).isReadBack (toList_text_string value rest)
  show readString _ = _
  rw [hread, htext, String.ofList_toList]
  rfl

theorem isRefused_string {value : String} (hvalue : (TokenKind.string value).isGarbled = true)
    (hrest : Ends rest) : (TokenKind.string value).IsRefused rest := by
  obtain ⟨c, hc, hnul⟩ := List.any_eq_true.1 hvalue
  obtain rfl : c = '\x00' := beq_iff_eq.1 hnul
  obtain ⟨fault, hread⟩ := readString_garbled hc hrest
  exact (startsToken_of_not_mem (by decide) _).isRefused (toList_text_string value rest) hread

theorem isGarbled_char (c : Char) :
    (TokenKind.char c.toString).isGarbled = decide (c ∈ unquotable) := by
  simp [TokenKind.isGarbled]

theorem isReadBack_char (hc : (TokenKind.char c.toString).isGarbled = false) (rest : List Char) :
    (TokenKind.char c.toString).IsReadBack rest := by
  rw [isGarbled_char] at hc
  have htext := toList_text_char c []
  rw [List.append_nil] at htext
  apply (startsToken_of_not_mem (by decide) _).isReadBack (toList_text_char c rest)
  show readChar _ = _
  rw [readChar_value (of_decide_eq_false hc), htext]

theorem isRefused_char (hc : (TokenKind.char c.toString).isGarbled = true) (hrest : Ends rest) :
    (TokenKind.char c.toString).IsRefused rest := by
  rw [isGarbled_char] at hc
  obtain ⟨fault, hread⟩ := readChar_garbled (of_decide_eq_true hc) hrest
  exact (startsToken_of_not_mem (by decide) _).isRefused (toList_text_char c rest) hread

/-! ### Shaders and marks -/

theorem isReadBack_shader (h : readShader cs = .ok token) (rest : List Char) :
    token.value.IsReadBack rest ∧ token.value.isGarbled = false := by
  unfold readShader at h
  split at h <;> cases h
  next code hcode =>
  refine ⟨?_, rfl⟩
  obtain ⟨text, htext, hagain⟩ := readCode_again hcode
  obtain rfl : code.text = text := by simpa using htext
  have hprint : (TokenKind.shader (String.ofList code.text)).text.toList =
      shaderOpening ++ code.text ++ ['|', ']'] := by
    simp [TokenKind.text, shaderOpening]
  refine (startsToken_of_not_mem (c := '[') (by decide)
    ('g' :: 'l' :: 's' :: 'l' :: '|' :: (code.text ++ '|' :: ']' :: rest))).isReadBack ?_ ?_
  · rw [hprint]
    simp [shaderOpening]
  · show readShader _ = _
    unfold readShader
    rw [hagain rest, hprint]
    rfl

theorem readPiece_square (h : ¬ ['g', 'l', 's', 'l', '|'] <+: rest) :
    readPiece '[' rest = .ok ⟨some (.opening .square), ['['], rest⟩ := by
  have hmark : readToken '[' rest = readMark '[' rest := by
    unfold readToken
    rw [if_neg (by decide), if_neg (by decide), if_neg (by decide), if_neg (by decide)]
    split
    · exact absurd ⟨_, rfl⟩ h
    · rfl
  rw [(startsToken_of_not_mem (by decide) rest).readPiece_eq, hmark]
  rfl

theorem readPiece_brace (h : rest.head? ≠ some '-') :
    readPiece '\x7b' rest = .ok ⟨some (.opening .brace), ['\x7b'], rest⟩ := by
  have hstarts : StartsToken '\x7b' rest :=
    ⟨by decide, by decide, fun hline => absurd hline.1 (by decide), fun hblock => h hblock.2⟩
  rw [hstarts.readPiece_eq]
  rfl

/-- Only two of the marks need something of what stands behind them. -/
theorem isReadBack_mark (h : mark? c = some kind) (hrest : kind.MayPrecede rest) :
    kind.IsReadBack rest ∧ kind.isGarbled = false := by
  have htext := text_of_mark? h
  have hdone : readPiece c rest = .ok ⟨some kind, [c], rest⟩ → kind.IsReadBack rest := by
    intro hread
    refine ⟨c, rest, by rw [htext]; rfl, ?_⟩
    rw [hread, htext]
  unfold mark? at h
  repeat' split at h
  all_goals cases h
  all_goals subst_vars
  case isFalse.isTrue => exact ⟨hdone (readPiece_square hrest), rfl⟩
  case isFalse.isFalse.isTrue => exact ⟨hdone (readPiece_brace hrest), rfl⟩
  all_goals exact ⟨hdone rfl, rfl⟩

theorem symbolKind_cases (symbols : List Char) :
    (symbolKind symbols).isOpening = false ∧ (symbolKind symbols).isGarbled = false := by
  unfold symbolKind
  repeat' split
  all_goals exact ⟨rfl, rfl⟩

theorem isReadBack_symbols (hc : isSymbol c = true) (hstarts : StartsToken c cs)
    (hrest : Ends rest) : (symbolKind (c :: cs.takeWhile isSymbol)).IsReadBack rest := by
  have hstops : Stops isSymbol rest := hrest.stops (by decide)
  have htext := toList_text_symbolKind (c :: cs.takeWhile isSymbol)
  -- The second character is that of the source, or ends the token.
  have hline : ¬ (c = '-' ∧ (cs.takeWhile isSymbol ++ rest).head? = some '-') := by
    rintro ⟨rfl, hhead⟩
    cases cs with
    | nil => exact absurd (hstops '-' hhead) (by decide)
    | cons d cs =>
      by_cases hd : isSymbol d = true
      · rw [List.takeWhile_cons_of_pos hd] at hhead
        exact hstarts.line ⟨rfl, hhead⟩
      · rw [List.takeWhile_cons_of_neg hd] at hhead
        exact absurd (hstops '-' hhead) (by decide)
  refine ⟨c, cs.takeWhile isSymbol ++ rest, by rw [htext]; rfl, ?_⟩
  rw [readPiece_symbol hc hline, takeWhile_again hstops, dropWhile_again hstops, htext]

/-! ## All tokens -/

theorem ends_of_mayPrecede (h : kind.MayPrecede rest) (hopen : kind.isOpening = false) :
    Ends rest := by
  cases kind with
  | opening bracket => cases hopen
  | _ => exact h

/-- **Printed tokens are read back**, unless they are garbled, and then nothing is read. -/
theorem TokenKind.IsToken.reread (h : kind.IsToken) (hrest : kind.MayPrecede rest) :
    (kind.isGarbled = false → kind.IsReadBack rest) ∧
      (kind.isGarbled = true → kind.IsRefused rest) := by
  have hgood : kind.IsReadBack rest ∧ kind.isGarbled = false →
      (kind.isGarbled = false → kind.IsReadBack rest) ∧
        (kind.isGarbled = true → kind.IsRefused rest) := by
    rintro ⟨hread, hgarbled⟩
    refine ⟨fun _ => hread, fun hyes => ?_⟩
    rw [hgarbled] at hyes
    cases hyes
  obtain ⟨c, cs, cut, hpiece, hkind⟩ := h
  obtain ⟨more, inner, hinner, rfl⟩ | ⟨hstarts, token, htoken, rfl⟩ :=
    startsToken_of_readPiece hpiece hkind
  · exact hgood ⟨isReadBack_doc hinner rest, rfl⟩
  -- From here on the cases are those of the reader, in its order.
  unfold readToken at htoken
  split at htoken
  · next hc =>
    obtain ⟨digits, hvalue⟩ := value_of_readNumber htoken
    have hrest : Ends rest := by
      rw [hvalue] at hrest
      exact hrest
    exact hgood ⟨isReadBack_number hc htoken hrest, by rw [hvalue]; rfl⟩
  split at htoken
  · next hc =>
    cases htoken
    obtain ⟨-, hopen, hgarbled⟩ := readName_cases (c :: cs)
    exact hgood ⟨isReadBack_name hc (ends_of_mayPrecede hrest hopen), hgarbled⟩
  split at htoken
  · obtain ⟨value, hvalue⟩ := value_of_readString htoken
    rw [hvalue] at hrest ⊢
    exact ⟨fun hgarbled => isReadBack_string hgarbled hrest,
      fun hgarbled => isRefused_string hgarbled hrest⟩
  split at htoken
  · obtain ⟨value, hvalue⟩ := value_of_readChar htoken
    rw [hvalue] at hrest ⊢
    exact ⟨fun hgarbled => isReadBack_char hgarbled rest,
      fun hgarbled => isRefused_char hgarbled hrest⟩
  split at htoken
  · exact hgood (isReadBack_shader htoken rest)
  · unfold readMark at htoken
    split at htoken
    · next hmark =>
      cases htoken
      exact hgood (isReadBack_mark hmark hrest)
    · split at htoken
      · next hc =>
        cases htoken
        obtain ⟨hopen, hgarbled⟩ := symbolKind_cases (c :: cs.takeWhile isSymbol)
        exact hgood ⟨isReadBack_symbols hc hstarts (ends_of_mayPrecede hrest hopen), hgarbled⟩
      · cases htoken

end

end ElmIntake
