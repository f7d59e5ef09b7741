import ElmIntake.Token.Piece

/-! # The pieces of a source

    A source that is cut into pieces is cut by `readPiece` over and over again,
    and no piece stands for the end of the source. So that end is the last token
    and no other one. -/

namespace ElmIntake

/-! ## No reader reads the end -/

theorem endNumber_ne_eof {digits text rest : List Char} {c : Cut TokenKind}
    (h : endNumber digits text rest = .ok c) : c.value ≠ .eof := by
  unfold endNumber at h
  split at h <;> cases h
  nofun

theorem readNumber_ne_eof {cs : List Char} {c : Cut TokenKind} (h : readNumber cs = .ok c) :
    c.value ≠ .eof := by
  have hhex : ∀ {x cs}, readHexNumber x cs = .ok c → c.value ≠ .eof := by
    intro x cs h
    unfold readHexNumber at h
    dsimp only at h
    split at h
    · cases h
    · exact endNumber_ne_eof h
  unfold readNumber at h
  split at h
  · exact hhex h
  · exact hhex h
  · exact endNumber_ne_eof h

theorem nameKind_ne_eof (upper : Bool) (name : String) : nameKind upper name ≠ .eof := by
  unfold nameKind
  split
  · nofun
  · split <;> nofun

theorem readName_ne_eof (cs : List Char) : (readName cs).value ≠ .eof := by
  unfold readName
  dsimp only
  split
  · nofun
  · exact nameKind_ne_eof _ _

theorem readStringBody_ne_eof {opening read seen cs : List Char} {triple : Bool}
    {c : Cut TokenKind} (h : readStringBody opening triple read seen cs = .ok c) :
    c.value ≠ .eof := by
  fun_induction readStringBody opening triple read seen cs with
  | case1 => cases h
  | case2 _ _ _ _ _ ih => exact ih h
  | case3 => cases h
  | case4 =>
    cases h
    intro heof
    cases heof
  | case5 _ _ _ _ _ _ _ ih => exact ih h
  | case6 => cases h
  | case7 =>
    cases h
    intro heof
    cases heof
  | case8 _ _ _ _ _ _ _ _ ih => exact ih h

theorem readString_ne_eof {cs : List Char} {c : Cut TokenKind} (h : readString cs = .ok c) :
    c.value ≠ .eof := by
  unfold readString at h
  split at h <;> exact readStringBody_ne_eof h

theorem readChar_ne_eof {cs : List Char} {c : Cut TokenKind} (h : readChar cs = .ok c) :
    c.value ≠ .eof := by
  have hend : ∀ {opening value seen rest}, endChar opening value seen rest = .ok c →
      c.value ≠ .eof := by
    intro opening value seen rest h
    unfold endChar at h
    split at h <;> cases h
    nofun
  unfold readChar at h
  dsimp only at h
  split at h
  · split at h
    · exact hend h
    · cases h
  · split at h
    · cases h
    · exact hend h
  · cases h

theorem mark?_ne_eof {c : Char} {kind : TokenKind} (h : mark? c = some kind) : kind ≠ .eof := by
  unfold mark? at h
  repeat' split at h
  all_goals cases h
  all_goals nofun

theorem symbolKind_ne_eof (symbols : List Char) : symbolKind symbols ≠ .eof := by
  unfold symbolKind
  repeat' split
  all_goals nofun

theorem readMark_ne_eof {c : Char} {cs : List Char} {cut : Cut TokenKind}
    (h : readMark c cs = .ok cut) : cut.value ≠ .eof := by
  unfold readMark at h
  split at h
  · next kind hkind =>
    cases h
    exact mark?_ne_eof hkind
  · split at h <;> cases h
    exact symbolKind_ne_eof _

theorem readToken_ne_eof {c : Char} {cs : List Char} {cut : Cut TokenKind}
    (h : readToken c cs = .ok cut) : cut.value ≠ .eof := by
  unfold readToken at h
  split at h
  · exact readNumber_ne_eof h
  split at h
  · cases h
    exact readName_ne_eof _
  split at h
  · exact readString_ne_eof h
  split at h
  · exact readChar_ne_eof h
  split at h
  · unfold readShader at h
    split at h <;> cases h
    nofun
  · exact readMark_ne_eof h

/-- Whatever is read of a source, it is not its end. -/
theorem readPiece_ne_eof {c : Char} {cs : List Char} {cut : Cut (Option TokenKind)}
    (h : readPiece c cs = .ok cut) : cut.value ≠ some .eof := by
  unfold readPiece at h
  split at h
  · cases h
    nofun
  split at h
  · cases h
  split at h
  · cases h
    nofun
  · unfold readDocComment at h
    split at h <;> cases h
    nofun
  · unfold readPlainComment at h
    split at h <;> cases h
    nofun
  · cases htoken : readToken c cs with
    | error fault => simp [htoken, Except.map] at h
    | ok token =>
      simp only [htoken, Except.map] at h
      cases h
      simpa using readToken_ne_eof htoken

/-! ## Cutting -/

/-- The pieces that reading one after the other gives. -/
inductive Cuts : List Char → List Piece → Prop where
  | done : Cuts [] []
  | piece {c : Char} {cs : List Char} {cut : Cut (Option TokenKind)} {pieces : List Piece} :
      readPiece c cs = .ok cut → Cuts cut.rest pieces →
      Cuts (c :: cs) (⟨cut.value, cut.text⟩ :: pieces)

theorem cuts_of_cutPieces {done pieces : List Piece} {cs : List Char}
    (h : cutPieces done cs = .ok pieces) :
    ∃ new, pieces = done.reverse ++ new ∧ Cuts cs new := by
  fun_induction cutPieces done cs with
  | case1 done =>
    cases h
    exact ⟨[], by simp, .done⟩
  | case2 => cases h
  | case3 done c cs cut hpiece ih =>
    obtain ⟨new, rfl, hcuts⟩ := ih h
    exact ⟨⟨cut.value, cut.text⟩ :: new, by simp, .piece hpiece hcuts⟩

/-- The tokens of a source are those of its pieces. -/
theorem Token.exists_cuts {source : String} {tokens : List Token}
    (h : ofSource source = .ok tokens) :
    ∃ pieces, Cuts source.toList pieces ∧ tokens = placePieces .start pieces := by
  unfold ofSource at h
  dsimp only at h
  cases hpieces : cutPieces [] source.toList with
  | error fault => simp [hpieces] at h
  | ok pieces =>
    simp only [hpieces, Except.ok.injEq] at h
    obtain ⟨new, hnew, hcuts⟩ := cuts_of_cutPieces hpieces
    rw [List.reverse_nil, List.nil_append] at hnew
    exact ⟨new, hcuts, by rw [← h, hnew]⟩

/-! ## The last token -/

/-- The placed tokens of pieces, and then the end. -/
theorem Cuts.exists_stream {cs : List Char} {pieces : List Piece} (h : Cuts cs pieces)
    (p : Position) :
    ∃ stream last, placePieces p pieces = stream ++ [last] ∧ last.kind = .eof ∧
      ∀ t ∈ stream, t.kind ≠ .eof := by
  induction h generalizing p with
  | done => exact ⟨[], _, rfl, rfl, by simp⟩
  | @piece c cs cut pieces hpiece _ ih =>
    obtain ⟨stream, last, hplaced, hlast, hstream⟩ := ih (p.past cut.text)
    cases hvalue : cut.value with
    | none => exact ⟨stream, last, by simp [placePieces, hplaced], hlast, hstream⟩
    | some kind =>
      refine ⟨⟨kind, p.spanTo (p.past cut.text)⟩ :: stream, last, by simp [placePieces, hplaced],
        hlast, fun t ht => ?_⟩
      rcases List.mem_cons.1 ht with rfl | ht
      · exact fun heof => readPiece_ne_eof hpiece (hvalue.trans (congrArg some heof))
      · exact hstream t ht

/-- **The end of the source comes last**, and only there. -/
theorem Token.exists_stream {source : String} {tokens : List Token}
    (h : ofSource source = .ok tokens) :
    ∃ stream last, tokens = stream ++ [last] ∧ last.kind = .eof ∧ ∀ t ∈ stream, t.kind ≠ .eof := by
  obtain ⟨pieces, hcuts, rfl⟩ := exists_cuts h
  exact hcuts.exists_stream .start

end ElmIntake
