import ElmIntake.Proofs.Token.Tiling

/-! # Tokens stand in the source as they are printed

    All tokens but literals are printed as they were written. Together with their
    places (`Tiling`) this tells what a reader of the source finds there: the slice
    of a token is its text.

    Literals are left out. Strings and characters are printed with escapes of their
    own, and a hexadecimal number always with a small `x`. -/

namespace ElmIntake

/-- Is a token of this kind printed as it was written? -/
def TokenKind.isVerbatim : TokenKind → Bool
  | .number _ | .string _ | .char _ => false
  | _ => true

/-! ## Readers -/

/-- If a reader gives a token that is printed as it was written, was it written so? -/
def Cut.IsVerbatim (cut : Cut TokenKind) : Prop :=
  cut.value.isVerbatim = true → cut.text = cut.value.text.toList

theorem Keyword.text_of_ofText? {word : String} {k : Keyword} (h : ofText? word = some k) :
    k.text = word := by
  have hfound := List.find?_some h
  exact eq_of_beq hfound

theorem text_nameKind (upper : Bool) (name : String) : (nameKind upper name).text = name := by
  unfold nameKind
  split
  · rfl
  · split
    · next word hword => exact Keyword.text_of_ofText? hword
    · rfl

theorem readName_isVerbatim (cs : List Char) : (readName cs).IsVerbatim := by
  intro _
  unfold readName
  dsimp only
  split
  · next hfirst =>
    rw [hfirst]
    show ['_'] = "_".toList
    decide
  · rw [text_nameKind, String.toList_ofList]

theorem endNumber_isVerbatim {digits text rest : List Char} {cut : Cut TokenKind}
    (h : endNumber digits text rest = .ok cut) : cut.IsVerbatim := by
  intro hverbatim
  unfold endNumber at h
  split at h <;> cases h
  cases hverbatim

theorem readNumber_isVerbatim {cs : List Char} {cut : Cut TokenKind}
    (h : readNumber cs = .ok cut) : cut.IsVerbatim := by
  have hhex : ∀ {x cs}, readHexNumber x cs = .ok cut → cut.IsVerbatim := by
    intro x cs h
    unfold readHexNumber at h
    dsimp only at h
    split at h
    · cases h
    · exact endNumber_isVerbatim h
  unfold readNumber at h
  split at h
  · exact hhex h
  · exact hhex h
  · exact endNumber_isVerbatim h

theorem readStringBody_isVerbatim {opening read seen cs : List Char} {triple : Bool}
    {cut : Cut TokenKind} (h : readStringBody opening triple read seen cs = .ok cut) :
    cut.IsVerbatim := by
  intro hverbatim
  fun_induction readStringBody opening triple read seen cs with
  | case1 => cases h
  | case2 _ _ _ _ _ ih => exact ih h
  | case3 => cases h
  | case4 =>
    cases h
    cases hverbatim
  | case5 _ _ _ _ _ _ _ ih => exact ih h
  | case6 => cases h
  | case7 =>
    cases h
    cases hverbatim
  | case8 _ _ _ _ _ _ _ _ ih => exact ih h

theorem readString_isVerbatim {cs : List Char} {cut : Cut TokenKind}
    (h : readString cs = .ok cut) : cut.IsVerbatim := by
  unfold readString at h
  split at h
  · exact readStringBody_isVerbatim h
  · exact readStringBody_isVerbatim h

theorem readChar_isVerbatim {cs : List Char} {cut : Cut TokenKind} (h : readChar cs = .ok cut) :
    cut.IsVerbatim := by
  have hend : ∀ {opening value seen rest}, endChar opening value seen rest = .ok cut →
      cut.IsVerbatim := by
    intro opening value seen rest h hverbatim
    unfold endChar at h
    split at h <;> cases h
    cases hverbatim
  unfold readChar at h
  dsimp only at h
  split at h
  · split at h
    · exact hend h
    · cases h
  · split at h
    · cases h
    · exact hend h
  · cases h

theorem text_of_mark? {c : Char} {kind : TokenKind} (h : mark? c = some kind) :
    kind.text.toList = [c] := by
  unfold mark? at h
  repeat' split at h
  all_goals cases h
  all_goals subst_vars
  all_goals rfl

theorem text_symbolKind (symbols : List Char) : (symbolKind symbols).text.toList = symbols := by
  unfold symbolKind
  repeat' split
  all_goals subst_vars
  all_goals first | rfl | exact String.toList_ofList

theorem readMark_isVerbatim {c : Char} {cs : List Char} {cut : Cut TokenKind}
    (h : readMark c cs = .ok cut) : cut.IsVerbatim := by
  intro _
  unfold readMark at h
  split at h
  · next kind hmark =>
    cases h
    exact (text_of_mark? hmark).symm
  · split at h <;> cases h
    exact (text_symbolKind _).symm

theorem readShader_isVerbatim {cs : List Char} {cut : Cut TokenKind}
    (h : readShader cs = .ok cut) : cut.IsVerbatim := by
  intro _
  unfold readShader at h
  split at h <;> cases h
  simp [TokenKind.text, shaderOpening]

theorem readToken_isVerbatim {c : Char} {cs : List Char} {cut : Cut TokenKind}
    (h : readToken c cs = .ok cut) : cut.IsVerbatim := by
  unfold readToken at h
  split at h
  · exact readNumber_isVerbatim h
  split at h
  · cases h
    exact readName_isVerbatim _
  split at h
  · exact readString_isVerbatim h
  split at h
  · exact readChar_isVerbatim h
  split at h
  · exact readShader_isVerbatim h
  · exact readMark_isVerbatim h

/-- **A piece is what its token is printed as**, documentation comments included. -/
theorem text_of_readPiece {c : Char} {cs : List Char} {cut : Cut (Option TokenKind)}
    {kind : TokenKind} (h : readPiece c cs = .ok cut) (hkind : cut.value = some kind)
    (hverbatim : kind.isVerbatim = true) : cut.text = kind.text.toList := by
  unfold readPiece at h
  split at h
  · cases h
    cases hkind
  split at h
  · cases h
  split at h
  · cases h
    cases hkind
  · unfold readDocComment at h
    split at h <;> cases h
    cases hkind
    simp [TokenKind.text]
  · unfold readPlainComment at h
    split at h <;> cases h
    cases hkind
  · cases htoken : readToken c cs with
    | error fault =>
      rw [htoken] at h
      cases h
    | ok token =>
      rw [htoken] at h
      cases h
      cases hkind
      exact readToken_isVerbatim htoken hverbatim

/-! ## Slices -/

/-- The bytes of a source that a span covers. -/
def Span.slice (s : Span) (source : Bytes) : Bytes :=
  (source.take s.stop.toNat).drop s.start.toNat

theorem Span.IsAt.slice {s : Span} {before text : List Char} (h : s.IsAt before text)
    (after : List Char) :
    s.slice ((before ++ text ++ after).flatMap String.utf8EncodeChar) =
      text.flatMap String.utf8EncodeChar := by
  have hsource : (before ++ text ++ after).flatMap String.utf8EncodeChar =
      (before ++ text).flatMap String.utf8EncodeChar ++ after.flatMap String.utf8EncodeChar :=
    List.flatMap_append
  unfold Span.slice
  rw [h.start, h.stop, hsource]
  unfold byteSize
  rw [List.take_left, List.flatMap_append, List.drop_left]

/-- What the places of some tokens of a source say, one by one and for each two of
    them. -/
structure Laid (source : String) (tokens : List Token) : Prop where
  /-- The source holds a token where it stands. -/
  slice : ∀ t ∈ tokens, t.kind.isVerbatim = true →
    t.span.slice (Text.toUtf8 source) = Text.toUtf8 t.text
  nonempty : ∀ t ∈ tokens, t.span.start < t.span.stop
  ordered : tokens.Pairwise fun a b => a.span.stop ≤ b.span.start

/-- The tokens of pieces, with what was read of each one. -/
theorem Cuts.slice_of_mem {cs : List Char} {pieces : List Piece} (h : Cuts cs pieces)
    (before : List Char) (hsize : byteSize (before ++ cs) < 2 ^ 32 - 1) :
    ∀ t ∈ placePieces (Position.start.past before) pieces, t.kind ≠ .eof →
      t.kind.isVerbatim = true →
        t.span.slice ((before ++ cs).flatMap String.utf8EncodeChar) = Text.toUtf8 t.text := by
  intro t ht hne hverbatim
  obtain ⟨front, c, rest, cut, hread, hvalue, rfl, hat⟩ := h.exists_readPiece before hsize ht hne
  have hslice := hat.slice cut.rest
  rw [text_of_readPiece hread hvalue hverbatim, List.append_assoc before,
    List.append_assoc before] at hslice
  rwa [text_of_readPiece hread hvalue hverbatim]

/-- **The source holds each token where it stands.** -/
theorem Token.laid_of_ofSource {source : String} {stream : List Token} {last : Token}
    (hsize : (Text.toUtf8 source).length < 2 ^ 32 - 1)
    (h : ofSource source = .ok (stream ++ [last])) (hstream : ∀ t ∈ stream, t.kind ≠ .eof) :
    Laid source stream := by
  obtain ⟨pieces, hcuts, hplaced⟩ := exists_cuts h
  have htiling : Tiling [] source.toList (stream ++ [last]) := hplaced ▸ .of_cuts hcuts [] hsize
  constructor
  case slice =>
    intro t ht
    apply hcuts.slice_of_mem [] hsize t _ (hstream t ht)
    change t ∈ placePieces .start pieces
    rw [← hplaced]
    exact List.mem_append_left _ ht
  case nonempty =>
    intro t ht
    obtain ⟨front, text, after, -, hat, hne⟩ := htiling.exists_isAt (List.mem_append_left _ ht)
    have hpos := byteSize_pos (hne (hstream t ht))
    rw [UInt32.lt_iff_toNat_lt, hat.start, hat.stop, byteSize_append ([] ++ front)]
    omega
  case ordered => exact (List.pairwise_append.1 htiling.ordered).1

end ElmIntake
