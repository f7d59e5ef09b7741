import ElmIntake.Proofs.Token.Lines
import ElmIntake.Proofs.Token.Reread

/-! # Tokens are determined by their own text

    What stands around a token does not matter for what it is: the slice of a source
    that a token covers, as a source of its own, is this token and nothing else.

    Tokens that are printed as they were written are read again when they are printed
    (`Reread`). Literals are not printed as they were written, so the readers of
    numbers, strings and characters are run again here, one lemma for each, on what
    they took and with nothing behind it. -/

namespace ElmIntake

/-! ## Readers -/

theorem ends_nil : Ends [] := nofun

/-! ### Numbers -/

theorem readDecimal_alone {cs : List Char} {cut : Cut TokenKind} (h : readDecimal cs = .ok cut) :
    readDecimal cut.text = .ok (cut.again []) := by
  have hagain := readDecimal_again h ends_nil
  have htext : cut.value.text.toList = cut.text := by
    rw [value_of_readDecimal h]
    exact String.toList_ofList
  rw [htext, List.append_nil] at hagain
  exact hagain

theorem readHexNumber_alone {x : Char} {cs : List Char} {cut : Cut TokenKind}
    (h : readHexNumber x cs = .ok cut) :
    ∃ digits, cut.text = '0' :: x :: digits ∧ readHexNumber x digits = .ok (cut.again []) := by
  unfold readHexNumber at h
  dsimp only at h
  split at h
  · cases h
  · next hdigits =>
    have htext := (endNumber_cut h).1
    obtain ⟨-, hend⟩ := endNumber_again h cut.text ends_nil
    have htake := takeWhile_again stops_nil (p := isHexDigit) cs
    have hdrop := dropWhile_again stops_nil (p := isHexDigit) cs
    rw [List.append_nil] at htake hdrop
    refine ⟨cs.takeWhile isHexDigit, htext, ?_⟩
    unfold readHexNumber
    dsimp only
    rw [htake, hdrop, if_neg hdigits, ← htext, hend]
    rfl

theorem readNumber_alone {cs : List Char} {cut : Cut TokenKind} (h : readNumber cs = .ok cut) :
    readNumber cut.text = .ok (cut.again []) := by
  unfold readNumber at h
  split at h
  · obtain ⟨digits, htext, hread⟩ := readHexNumber_alone h
    rw [htext]
    exact hread
  · obtain ⟨digits, htext, hread⟩ := readHexNumber_alone h
    rw [htext]
    exact hread
  · exact readNumber_of_readDecimal (readDecimal_alone h)

/-! ### Strings and characters -/

/-- A code point ends at its brace, whatever follows. -/
theorem readCodePoint_again {cs : List Char} {cut : Cut Char} (h : readCodePoint cs = .ok cut)
    (rest : List Char) : readCodePoint (cut.text ++ rest) = .ok (cut.again rest) := by
  unfold readCodePoint at h
  split at h
  · split at h
    · next c hc =>
      cases h
      have hstops : Stops isHexDigit ('\x7d' :: rest) := stops_cons (by decide)
      unfold readCodePoint
      rw [List.append_assoc, List.singleton_append, dropWhile_again hstops,
        takeWhile_again hstops, hc]
      rfl
    · cases h
  · cases h

theorem readEscape_again {cs : List Char} {cut : Cut Char} (h : readEscape cs = .ok cut)
    (rest : List Char) : readEscape (cut.text ++ rest) = .ok (cut.again rest) := by
  unfold readEscape at h
  split at h
  case h_7 tail =>
    cases hpoint : readCodePoint tail with
    | error fault =>
      rw [hpoint] at h
      cases h
    | ok point =>
      rw [hpoint] at h
      cases h
      show (readCodePoint (point.text ++ rest)).map _ = _
      rw [readCodePoint_again hpoint]
      rfl
  all_goals cases h
  all_goals rfl

/-- What a string takes behind what it has taken before stands in the source. -/
theorem isPrefix_of_readStringBody {opening read seen cs body : List Char} {triple : Bool}
    {cut : Cut TokenKind} (h : readStringBody opening triple read seen cs = .ok cut)
    (htext : cut.text = seen.reverse ++ body) : body <+: cs := by
  have hsource := readStringBody_source h
  rw [Cut.source, htext, List.append_assoc, List.append_cancel_left_eq] at hsource
  exact ⟨_, hsource⟩

/-- The rest of a string is read again, up to its closing quotes. -/
theorem readStringBody_alone {opening read seen cs : List Char} {triple : Bool}
    {cut : Cut TokenKind} (h : readStringBody opening triple read seen cs = .ok cut) :
    ∃ body, cut.text = seen.reverse ++ body ∧
      ∀ opening', readStringBody opening' triple read seen body = .ok (cut.again []) := by
  -- Each round takes the same characters again; what the later rounds take is `body`.
  fun_induction readStringBody opening triple read seen cs with
  | case1 => cases h
  | case2 read seen cs e hescape ih =>
    obtain ⟨body, htext, hread⟩ := ih h
    refine ⟨'\\' :: (e.text ++ body), by simp [htext], fun opening' => ?_⟩
    rw [readStringBody, if_pos rfl, readEscape_again hescape]
    exact hread opening'
  | case3 => cases h
  | case4 read seen c cs hescape htriple hquotes =>
    cases h
    obtain ⟨rfl, -⟩ := hquotes
    refine ⟨['"', '"', '"'], rfl, fun opening' => ?_⟩
    rw [readStringBody, if_neg hescape, if_pos htriple, if_pos ⟨rfl, List.prefix_refl _⟩]
    rfl
  | case5 read seen c cs hescape htriple hquotes ih =>
    obtain ⟨body, htext, hread⟩ := ih h
    refine ⟨c :: body, by simp [htext], fun opening' => ?_⟩
    have hbody : body <+: cs := isPrefix_of_readStringBody h htext
    have hquotes' : ¬ (c = '"' ∧ ['"', '"'] <+: body) :=
      fun hend => hquotes ⟨hend.1, hend.2.trans hbody⟩
    rw [readStringBody, if_neg hescape, if_pos htriple, if_neg hquotes']
    exact hread opening'
  | case6 => cases h
  | case7 read seen cs hescape htriple hfeed =>
    cases h
    refine ⟨['"'], rfl, fun opening' => ?_⟩
    rw [readStringBody, if_neg hescape, if_neg htriple, if_neg hfeed, if_pos rfl]
    rfl
  | case8 read seen c cs hescape htriple hfeed hquote ih =>
    obtain ⟨body, htext, hread⟩ := ih h
    refine ⟨c :: body, by simp [htext], fun opening' => ?_⟩
    rw [readStringBody, if_neg hescape, if_neg htriple, if_neg hfeed, if_neg hquote]
    exact hread opening'

theorem readString_alone {cs : List Char} {cut : Cut TokenKind}
    (h : readString cs = .ok cut) :
    ∃ tail, cut.text = '"' :: tail ∧ readString tail = .ok (cut.again []) := by
  unfold readString at h
  split at h
  · obtain ⟨body, htext, hread⟩ := readStringBody_alone h
    exact ⟨'"' :: '"' :: body, htext, hread _⟩
  · next hquotes =>
    obtain ⟨body, htext, hread⟩ := readStringBody_alone h
    refine ⟨body, htext, ?_⟩
    -- Two more quotes at the beginning would stand in the source, too.
    have hbody : body <+: cs := isPrefix_of_readStringBody h htext
    rw [readString]
    · exact hread _
    · rintro tail rfl
      obtain ⟨rest, rfl⟩ := hbody
      exact hquotes _ rfl

theorem endChar_alone {opening seen cs : List Char} {value : Char} {cut : Cut TokenKind}
    (h : endChar opening value seen cs = .ok cut) (opening' : List Char) :
    cut.text = seen ++ ['\''] ∧ endChar opening' value seen ['\''] = .ok (cut.again []) := by
  unfold endChar at h
  split at h
  · cases h
    exact ⟨rfl, rfl⟩
  · cases h

theorem readChar_alone {cs : List Char} {cut : Cut TokenKind}
    (h : readChar cs = .ok cut) :
    ∃ tail, cut.text = '\'' :: tail ∧ readChar tail = .ok (cut.again []) := by
  unfold readChar at h
  dsimp only at h
  split at h
  · next rest =>
    split at h
    · -- An escape sequence ends by itself.
      next e hescape =>
      have hend := endChar_alone h
      refine ⟨'\\' :: (e.text ++ ['\'']), (hend []).1, ?_⟩
      unfold readChar
      simp only [readEscape_again hescape]
      exact (hend _).2
    · cases h
  · next c rest hescape =>
    split at h
    · cases h
    · next hc =>
      have hend := endChar_alone h
      refine ⟨[c, '\''], (hend []).1, ?_⟩
      unfold readChar
      split
      · next heq =>
        cases heq
        exact (hescape rfl).elim
      · next heq =>
        cases heq
        rw [if_neg hc]
        exact (hend _).2
      · next heq => cases heq
  · cases h

/-! ## Pieces -/

/-- Operators, marks and shaders are printed as they were written. -/
theorem isVerbatim_of_readMark {c : Char} {cs : List Char} {cut : Cut TokenKind}
    (h : readMark c cs = .ok cut) : cut.value.isVerbatim = true := by
  unfold readMark at h
  split at h
  · next kind hmark =>
    cases h
    unfold mark? at hmark
    repeat' split at hmark
    all_goals cases hmark
    all_goals rfl
  · split at h <;> cases h
    unfold symbolKind
    repeat' split
    all_goals rfl

/-- A literal is read again of its own text. -/
theorem readToken_alone {c : Char} {cs : List Char} {cut : Cut TokenKind}
    (h : readToken c cs = .ok cut) (hliteral : cut.value.isVerbatim = false) :
    ∃ tail, cut.text = c :: tail ∧ StartsToken c tail ∧
      readToken c tail = .ok (cut.again []) := by
  -- Names and marks are no literals; of these each is read again as it was.
  unfold readToken at h
  split at h
  · next hdigit =>
    have hread := readNumber_alone h
    obtain ⟨hsource, hne⟩ := readNumber_takes hdigit h
    cases htext : cut.text with
    | nil => exact absurd htext hne
    | cons d tail =>
      rw [Cut.source, htext] at hsource
      obtain rfl : d = c := (List.cons.inj hsource).1
      rw [htext] at hread
      refine ⟨tail, rfl, startsToken_of_isDigit hdigit tail, ?_⟩
      unfold readToken
      rw [if_pos hdigit]
      exact hread
  split at h
  · cases h
    rw [(readName_cases _).1] at hliteral
    cases hliteral
  split at h
  · next hquote =>
    subst hquote
    obtain ⟨tail, htext, hread⟩ := readString_alone h
    exact ⟨tail, htext, startsToken_of_not_mem (by decide) tail, hread⟩
  split at h
  · next hquote =>
    subst hquote
    obtain ⟨tail, htext, hread⟩ := readChar_alone h
    exact ⟨tail, htext, startsToken_of_not_mem (by decide) tail, hread⟩
  split at h
  · unfold readShader at h
    split at h <;> cases h
    cases hliteral
  · rw [isVerbatim_of_readMark h] at hliteral
    cases hliteral

/-- Nothing at all may stand behind any token. -/
theorem TokenKind.mayPrecede_nil (kind : TokenKind) : kind.MayPrecede [] := by
  cases kind with
  | opening bracket => cases bracket <;> simp [MayPrecede]
  | _ => exact ends_nil

/-- **A token is read again of its own text.** -/
theorem readPiece_alone {c : Char} {cs : List Char} {cut : Cut (Option TokenKind)}
    {kind : TokenKind} (h : readPiece c cs = .ok cut) (hkind : cut.value = some kind) :
    ∃ d tail, cut.text = d :: tail ∧ readPiece d tail = .ok (cut.again []) := by
  have hcut : ∀ text, cut.text = text → cut.again [] = ⟨some kind, text, []⟩ := by
    rintro text rfl
    rw [Cut.again, hkind]
  cases hverbatim : kind.isVerbatim with
  | true =>
    -- What is printed is what was written.
    have htext := text_of_readPiece h hkind hverbatim
    have hprecede : kind.MayPrecede [] := TokenKind.mayPrecede_nil kind
    have hgarbled : kind.isGarbled = false := by
      cases kind with
      | string value | char value => cases hverbatim
      | _ => rfl
    have htoken : kind.IsToken := ⟨c, cs, cut, h, hkind⟩
    obtain ⟨d, tail, hsplit, hread⟩ := (htoken.reread hprecede).1 hgarbled
    rw [List.append_nil] at hsplit
    refine ⟨d, tail, htext.trans hsplit, ?_⟩
    rw [hread, hcut _ htext]
  | false =>
    obtain ⟨more, inner, -, rfl⟩ | ⟨hstarts, token, htoken, rfl⟩ := startsToken_of_readPiece h hkind
    · cases hverbatim
    · obtain ⟨tail, htext, hstarts', hread⟩ := readToken_alone htoken hverbatim
      rw [hstarts.readPiece_eq, htoken] at h
      cases h
      refine ⟨c, tail, htext, ?_⟩
      rw [hstarts'.readPiece_eq, hread]
      rfl

/-! ## Sources -/

/-- A source that is one piece has one token, where every source begins, and the end. -/
theorem Token.ofSource_of_readPiece {c : Char} {tail text : List Char} {kind : TokenKind}
    (htext : text = c :: tail) (h : readPiece c tail = .ok ⟨some kind, text, []⟩) :
    ofSource (String.ofList text) =
      .ok [⟨kind, Position.start.spanTo (Position.start.past text)⟩,
        ⟨.eof, (Position.start.past text).spanTo (Position.start.past text)⟩] := by
  have hcuts : Cuts text [⟨some kind, text⟩] := by
    have hpiece := Cuts.piece h .done
    rwa [← htext] at hpiece
  unfold ofSource
  rw [String.toList_ofList]
  dsimp only
  rw [cutPieces_of_cuts hcuts []]
  rfl

/-- The span of a text at the very beginning, in terms of where it stood before. -/
theorem Span.IsAt.spanTo_start {s : Span} {before text : List Char} (h : s.IsAt before text) :
    Position.start.spanTo (Position.start.past text) = ⟨0, s.stop - s.start, 1, 1⟩ := by
  have hwidth : s.stop - s.start = (byteSize text).toUInt32 := by
    have hstop := h.stop
    rw [byteSize_append, ← h.start] at hstop
    rw [← UInt32.toNat_inj, UInt32.toNat_sub_of_le _ _ (by rw [UInt32.le_iff_toNat_le]; omega)]
    have hlt := s.stop.toNat_lt
    have hsize : (byteSize text).toUInt32.toNat = byteSize text := Nat.mod_eq_of_lt (by omega)
    omega
  rw [Position.past_start, hwidth]
  rfl

/-- **Tokens are determined by their own text.** The slice of a source that a token covers,
    as a source of its own, has this token, at the beginning, and then the end. -/
theorem Token.ofSource_alone {source : String} {tokens : List Token}
    (hsize : (Text.toUtf8 source).length < 2 ^ 32 - 1) (h : ofSource source = .ok tokens) :
    ∀ t ∈ tokens, t.kind ≠ .eof → ∃ word line column,
      Text.toUtf8 word = t.span.slice (Text.toUtf8 source) ∧
      ofSource word =
        .ok [⟨t.kind, ⟨0, t.span.stop - t.span.start, 1, 1⟩⟩,
          ⟨.eof, ⟨t.span.stop - t.span.start, t.span.stop - t.span.start, line, column⟩⟩] := by
  intro t ht hne
  obtain ⟨pieces, hcuts, rfl⟩ := exists_cuts h
  obtain ⟨front, c, rest, cut, hread, hvalue, hsource, hat⟩ :=
    hcuts.exists_readPiece [] hsize ht hne
  obtain ⟨d, tail, htext, hagain⟩ := readPiece_alone hread hvalue
  have hpiece : readPiece d tail = .ok ⟨some t.kind, cut.text, []⟩ := by
    rw [hagain, Cut.again, hvalue]
  have halone := ofSource_of_readPiece htext hpiece
  have hstop : (Position.start.past cut.text).offset.toUInt32 = t.span.stop - t.span.start :=
    congrArg Span.stop hat.spanTo_start
  refine ⟨String.ofList cut.text, (Position.start.past cut.text).line.toUInt32,
    (Position.start.past cut.text).column.toUInt32, ?_, ?_⟩
  · have hslice := hat.slice cut.rest
    rw [List.nil_append, ← hsource] at hslice
    rw [Text.toUtf8, Text.toUtf8, String.toList_ofList, hslice]
  · rw [halone, hat.spanTo_start, ← hstop]
    rfl

/-- A source with tokens of many kinds. -/
def Token.motley : String :=
  "\x7b-| é \x7b- -\x7d -\x7d\nx = \"\"\"a\"\nb\"\"\" ++ '\\n' :: [ 0XfF, List.map -> [glsl|a|b|] ]"

/-- Literals are among them, which are not printed as they were written. -/
theorem Token.ofSource_alone_motley :
    ∃ tokens, ofSource motley = .ok tokens ∧
      tokens.map (·.kind) = [.doc " é \x7b- -\x7d ", .lowerName "x", .equals, .string "a\"\nb",
        .operator "++", .char "\n", .operator "::", .opening .square, .number "0xfF", .comma,
        .lowerName "List.map", .arrow, .shader "a|b", .closing .square, .eof] ∧
      ∀ t ∈ tokens, t.kind ≠ .eof → ∃ word line column,
        Text.toUtf8 word = t.span.slice (Text.toUtf8 motley) ∧
        ofSource word =
          .ok [⟨t.kind, ⟨0, t.span.stop - t.span.start, 1, 1⟩⟩,
            ⟨.eof, ⟨t.span.stop - t.span.start, t.span.stop - t.span.start, line, column⟩⟩] := by
  have hkinds : (ofSource motley).toOption.map (·.map (·.kind)) = some
      [.doc " é \x7b- -\x7d ", .lowerName "x", .equals, .string "a\"\nb",
        .operator "++", .char "\n", .operator "::", .opening .square, .number "0xfF", .comma,
        .lowerName "List.map", .arrow, .shader "a|b", .closing .square, .eof] := by decide +kernel
  cases htokens : ofSource motley with
  | error e =>
    rw [htokens] at hkinds
    cases hkinds
  | ok tokens =>
    rw [htokens] at hkinds
    exact ⟨tokens, rfl, Option.some.inj hkinds, ofSource_alone (by decide +kernel) htokens⟩

end ElmIntake
