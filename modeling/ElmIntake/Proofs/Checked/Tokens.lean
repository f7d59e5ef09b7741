import ElmIntake.Proofs.Checked.Scanning

/-! # Scanners read tokens as readers do

    Shaders and comments, pieces, and then whole sources. The comments that are open
    are counted in a word with a sign, which is large enough since each of them has
    taken two bytes. Main statement: `Scanner.run_tokenize`. -/

namespace ElmIntake

open Machine (run_bind_ok run_bind_error run_bind_again run_check loop loop_done loop_again
  loop_halt)

section Pieces

variable {whole taken unread text rest : List Char} {c : Char} {cs : List Char}

namespace Scanner

/-! ## Shaders and comments -/

/-- A shader block that began at `before`, of whose code, which follows `front`, `seen` has
    been read. -/
theorem run_shaderBody {before opening : List Char} (front seen : List Char)
    (hm : Splits whole before opening) (h : Splits whole (front ++ seen.reverse) cs) :
    (shaderBody (Position.start.past before) seen.reverse).run
        (past whole (front ++ seen.reverse)) =
      match readCode seen cs with
      | some code => .ok (⟨.shader (String.ofList code.text), (Position.start.past before).spanTo
          (Position.start.past (front ++ code.text ++ ['|', ']']))⟩,
          past whole (front ++ code.text ++ ['|', ']']))
      | none => .error (.report (.ofFault whole ⟨.unterminatedShader, opening, []⟩)) := by
  unfold shaderBody
  -- One round of the loop takes what one step of the reader takes.
  fun_induction readCode seen cs with
  | case1 seen rest =>
    have hsplit : Splits whole (front ++ seen.reverse) (['|', ']'] ++ rest) := h
    have hround : (shaderRound (Position.start.past before) seen.reverse).run
        (past whole (front ++ seen.reverse)) =
        .ok (.done seen.reverse, past whole (front ++ seen.reverse ++ ['|', ']'])) := by
      unfold shaderRound
      rw [run_bind_ok (run_isAhead h _), if_pos (by simp),
        run_bind_ok (run_advanceBy 2 hsplit rfl)]
      rfl
    rw [run_bind_ok (loop_done hround), run_token hm hsplit.ahead]
  | case2 seen c cs hother ih =>
    have hgoes : ¬ ['|', ']'].isPrefixOf (c :: cs) = true := by
      rw [List.isPrefixOf_iff_prefix, List.cons_prefix_cons]
      rintro ⟨rfl, rest, rfl⟩
      exact hother rest rfl rfl
    have hround : (shaderRound (Position.start.past before) seen.reverse).run
        (past whole (front ++ seen.reverse)) =
        .ok (.again (seen.reverse ++ [c]), past whole (front ++ seen.reverse ++ [c])) := by
      unfold shaderRound
      rw [run_bind_ok (run_isAhead h _), if_neg hgoes, run_bind_ok (run_advance h)]
      rfl
    have hseen : front ++ seen.reverse ++ [c] = front ++ (c :: seen).reverse := by
      rw [List.reverse_cons, List.append_assoc]
    have hnext := h.next
    have hleft := left_lt_next h
    rw [hseen] at hround hnext hleft
    rw [run_bind_again hround hleft, ← List.reverse_cons, ih hnext]
  | case3 seen =>
    have hround : (shaderRound (Position.start.past before) seen.reverse).run
        (past whole (front ++ seen.reverse)) =
        .error (.report (.ofFault whole ⟨.unterminatedShader, opening, []⟩)) := by
      unfold shaderRound
      rw [run_bind_ok (run_isAhead h _), if_neg (by simp), run_bind_ok (run_advance_end h)]
      dsimp only
      rw [run_failFrom hm h]
    rw [run_bind_error (loop_halt hround)]

/-- A scanner reads a shader block as `readShader` does. -/
theorem run_shader (h : Splits whole taken (shaderOpening ++ cs)) :
    (shader (Position.start.past taken)).run (past whole taken) =
      outcome whole taken (tokenOf taken) (readShader cs) := by
  have hbody := run_shaderBody (taken ++ shaderOpening) [] h (by simpa using h.ahead)
  rw [List.reverse_nil, List.append_nil] at hbody
  unfold shader
  rw [run_bind_ok (run_advanceBy _ h rfl), hbody]
  fun_cases readShader cs with
  | case1 code hcode =>
    rw [hcode]
    simp [outcome, tokenOf]
  | case2 hcode =>
    rw [hcode]
    rfl

/-- The round of a comment at an opening mark, which is that of a comment within it. -/
theorem run_commentRound_open (m : Position) {depth : Int} (value : List Char)
    (hopen : 0 < depth) (hfits : depth + 1 < 2 ^ 31) (h : Splits whole taken (['{', '-'] ++ cs)) :
    (commentRound m (depth, value)).run (past whole taken) =
      .ok (.again (depth + 1, value ++ ['{', '-']), past whole (taken ++ ['{', '-'])) := by
  have hahead : Splits whole taken ('{' :: '-' :: cs) := h
  rw [commentRound, if_pos hopen, run_bind_first hahead, run_bind_second hahead,
    if_pos ⟨rfl, rfl⟩, run_bind_ok (run_check (Checked.signed_eq (by omega) hfits)),
    run_bind_ok (run_advanceBy 2 h rfl)]
  rfl

/-- A closing mark is a part of the text unless it closes the comment itself. -/
theorem run_commentRound_close (m : Position) {depth : Int} (value : List Char)
    (hopen : 0 < depth) (hfits : depth < 2 ^ 31) (h : Splits whole taken (['-', '}'] ++ cs)) :
    (commentRound m (depth, value)).run (past whole taken) =
      .ok (.again (depth - 1, if 0 < depth - 1 then value ++ ['-', '}'] else value),
        past whole (taken ++ ['-', '}'])) := by
  have hahead : Splits whole taken ('-' :: '}' :: cs) := h
  rw [commentRound, if_pos hopen, run_bind_first hahead, run_bind_second hahead,
    if_neg (by simp), if_pos ⟨rfl, rfl⟩,
    run_bind_ok (run_check (Checked.signed_eq (by omega) (by omega))),
    run_bind_ok (run_advanceBy 2 h rfl)]
  rfl

/-- The round of a comment at a character that starts no mark. -/
theorem run_commentRound_char (m : Position) {depth : Int} (value : List Char)
    (hopen : 0 < depth) (hopens : ¬ (some c = some '{' ∧ cs.head? = some '-'))
    (hcloses : ¬ (some c = some '-' ∧ cs.head? = some '}')) (h : Splits whole taken (c :: cs)) :
    (commentRound m (depth, value)).run (past whole taken) =
      .ok (.again (depth, value ++ [c]), past whole (taken ++ [c])) := by
  rw [commentRound, if_pos hopen, run_bind_first h, run_bind_second h, if_neg hopens,
    if_neg hcloses]
  dsimp only
  rw [run_bind_ok (run_advance h)]
  rfl

/-- The round of a comment where the source ends. -/
theorem run_commentRound_end {before opening : List Char} {depth : Int} (value : List Char)
    (hopen : 0 < depth) (hm : Splits whole before opening) (h : Splits whole taken []) :
    (commentRound (Position.start.past before) (depth, value)).run (past whole taken) =
      .error (.report (.ofFault whole ⟨.unterminatedComment, opening, []⟩)) := by
  rw [commentRound, if_pos hopen, run_bind_first_end h, run_bind_ok (run_peek? h (by decide)),
    if_neg (by simp), if_neg (by simp)]
  dsimp only
  rw [run_failFrom hm h]

/-- The rounds of a comment that began at `before`, of whose text, which follows `front`,
    `seen` has been read. Each comment that is open has taken two characters, so there are
    not too many of them to be counted. -/
theorem run_commentRounds {before opening : List Char} (front seen : List Char) (depth : Nat)
    (hm : Splits whole before opening) (h : Splits whole (front ++ seen.reverse) cs)
    (hdepth : 2 * (depth + 1) ≤ (front ++ seen.reverse).length) :
    (loop left (commentRound (Position.start.past before)) ((depth : Int) + 1, seen.reverse)).run
        (past whole (front ++ seen.reverse)) =
      match readNested seen depth cs with
      | some inner => .ok (inner.text, past whole (front ++ inner.text ++ ['-', '}']))
      | none => .error (.report (.ofFault whole ⟨.unterminatedComment, opening, []⟩)) := by
  have hopen : ∀ depth : Nat, (0 : Int) < depth + 1 := by omega
  -- The reader keeps what it has seen backwards, and the loop forwards.
  have hmark : ∀ (seen : List Char) (c d : Char),
      front ++ seen.reverse ++ [c, d] = front ++ (d :: c :: seen).reverse ∧
        seen.reverse ++ [c, d] = (d :: c :: seen).reverse ∧
        (front ++ (d :: c :: seen).reverse).length = (front ++ seen.reverse).length + 2 := by
    intro seen c d
    refine ⟨by simp, by simp, ?_⟩
    simp only [List.length_append, List.length_reverse, List.length_cons]
    omega
  have hsize : ∀ {taken unread : List Char}, Splits whole taken unread →
      taken.length < 2 ^ 32 - 1 := fun h =>
    Nat.lt_of_le_of_lt (length_le_byteSize _) h.byteSize_lt
  fun_induction readNested seen depth cs with
  | case1 seen depth cs ih =>
    have hsplit : Splits whole (front ++ seen.reverse) (['{', '-'] ++ cs) := h
    obtain ⟨hseen, htext, hlength⟩ := hmark seen '{' '-'
    have hnext := hsplit.ahead
    have hleft := left_lt hsplit (List.cons_ne_nil _ _)
    rw [hseen] at hnext hleft
    have hshort := hsize hnext
    have hround := run_commentRound_open (Position.start.past before) seen.reverse (hopen depth)
      (by omega) hsplit
    rw [hseen, htext] at hround
    rw [loop_again hround hleft]
    exact ih hnext (by omega)
  | case2 seen rest =>
    have hsplit : Splits whole (front ++ seen.reverse) (['-', '}'] ++ rest) := h
    have hround := run_commentRound_close (Position.start.past before) seen.reverse Int.one_pos
      (by decide) hsplit
    have hend : (commentRound (Position.start.past before) (0, seen.reverse)).run
        (past whole (front ++ seen.reverse ++ ['-', '}'])) =
        .ok (.done seen.reverse, past whole (front ++ seen.reverse ++ ['-', '}'])) := rfl
    exact (loop_again hround (left_lt hsplit (List.cons_ne_nil _ _))).trans (loop_done hend)
  | case3 seen depth cs ih =>
    have hsplit : Splits whole (front ++ seen.reverse) (['-', '}'] ++ cs) := h
    obtain ⟨hseen, htext, hlength⟩ := hmark seen '-' '}'
    have hnext := hsplit.ahead
    have hleft := left_lt hsplit (List.cons_ne_nil _ _)
    have hshort := hsize h
    have hround := run_commentRound_close (Position.start.past before) seen.reverse
      (hopen (depth + 1)) (by omega) hsplit
    rw [Int.add_sub_cancel, if_pos (by omega), hseen, htext] at hround
    rw [hseen] at hnext hleft
    rw [loop_again hround hleft]
    exact ih hnext (by omega)
  | case4 seen depth c cs hopens hcloses hclosed ih =>
    have hneither : ¬ (some c = some '{' ∧ cs.head? = some '-') ∧
        ¬ (some c = some '-' ∧ cs.head? = some '}') := by
      constructor
      · rintro ⟨hc, hhead⟩
        exact head?_ne_some (fun rest => hopens rest (Option.some.inj hc)) hhead
      · rintro ⟨hc, hhead⟩
        obtain ⟨rest, hrest⟩ := List.head?_eq_some_iff.1 hhead
        cases depth with
        | zero => exact hcloses rest rfl (Option.some.inj hc) hrest
        | succ depth => exact hclosed depth rest rfl (Option.some.inj hc) hrest
    have hround := run_commentRound_char (Position.start.past before) seen.reverse (hopen depth)
      hneither.1 hneither.2 h
    have hseen : front ++ seen.reverse ++ [c] = front ++ (c :: seen).reverse := by
      rw [List.reverse_cons, List.append_assoc]
    have hnext := h.next
    have hleft := left_lt_next h
    have hlength := congrArg List.length hseen
    rw [hseen] at hround hnext hleft
    rw [List.length_append] at hlength
    rw [loop_again hround hleft, ← List.reverse_cons, ih hnext (by omega)]
  | case5 seen depth =>
    rw [loop_halt (run_commentRound_end _ (hopen depth) hm h)]

theorem run_commentText {before opening front : List Char} (hm : Splits whole before opening)
    (h : Splits whole front cs) (hmark : 2 ≤ front.length) :
    (commentText (Position.start.past before)).run (past whole front) =
      match readNested [] 0 cs with
      | some inner => .ok (inner.text, past whole (front ++ inner.text ++ ['-', '}']))
      | none => .error (.report (.ofFault whole ⟨.unterminatedComment, opening, []⟩)) := by
  have hrounds := run_commentRounds front [] 0 hm (by simpa using h) (by simpa using hmark)
  rwa [List.reverse_nil, List.append_nil] at hrounds

/-- The token that a piece behind `taken` is, unless it is a blank or a comment. -/
def tokenOfPiece? (taken : List Char) (cut : Cut (Option TokenKind)) : Option Token :=
  cut.value.map fun kind =>
    ⟨kind, (Position.start.past taken).spanTo (Position.start.past (taken ++ cut.text))⟩

/-- A scanner reads documentation as `readDocComment` does. -/
theorem run_comment_doc (h : Splits whole taken ('{' :: '-' :: '|' :: cs)) :
    comment.run (past whole taken) =
      outcome whole taken (tokenOfPiece? taken) (readDocComment cs) := by
  have hopen : Splits whole taken (['{', '-'] ++ '|' :: cs) := h
  have hbar := hopen.ahead
  have htext := run_commentText h hbar.next (by simp)
  unfold comment
  rw [run_bind_ok (run_mark h), run_bind_ok (run_advanceBy 2 hopen rfl), run_bind_first hbar,
    if_pos rfl, run_bind_ok (run_advance hbar)]
  fun_cases readDocComment cs with
  | case1 inner hinner =>
    rw [hinner] at htext
    have hnested := readNested_source hinner
    have hclosed : Splits whole (taken ++ ['{', '-'] ++ ['|'] ++ inner.text)
        (['-', '}'] ++ inner.rest) := by
      refine Splits.ahead ?_
      rw [show inner.text ++ (['-', '}'] ++ inner.rest) = cs from hnested]
      exact hbar.next
    rw [run_bind_ok htext, run_bind_ok (run_token h hclosed.ahead _)]
    simp only [outcome, tokenOfPiece?, List.append_assoc]
    rfl
  | case2 hinner =>
    rw [hinner] at htext
    rw [run_bind_error htext]
    rfl

/-- A scanner passes over a comment as `readPlainComment` does. -/
theorem run_comment_plain (h : Splits whole taken ('{' :: '-' :: cs))
    (hplain : ∀ rest, cs = '|' :: rest → False) :
    comment.run (past whole taken) =
      outcome whole taken (tokenOfPiece? taken) (readPlainComment cs) := by
  have hopen : Splits whole taken (['{', '-'] ++ cs) := h
  have htext := run_commentText h hopen.ahead (by simp)
  unfold comment
  rw [run_bind_ok (run_mark h), run_bind_ok (run_advanceBy 2 hopen rfl),
    run_bind_head hopen.ahead, if_neg (head?_ne_some hplain)]
  fun_cases readPlainComment cs with
  | case1 inner hinner =>
    rw [hinner] at htext
    rw [run_bind_ok htext]
    simp only [outcome, tokenOfPiece?, List.append_assoc]
    rfl
  | case2 hinner =>
    rw [hinner] at htext
    rw [run_bind_error htext]
    rfl

/-! ## Pieces and tokens -/

theorem run_mark? {kind : TokenKind} (h : Splits whole taken (c :: cs)) :
    StateT.run (do
      let _ ← advance
      token kind (Position.start.past taken)) (past whole taken) =
      outcome whole taken (tokenOf taken) (.ok ⟨kind, [c], cs⟩) := by
  rw [run_bind_ok (run_advance h), run_token h h.next]
  rfl

/-- A scanner reads a token as `readToken` does. -/
theorem run_lexToken (h : Splits whole taken (c :: cs)) :
    (lexToken c).run (past whole taken) =
      outcome whole taken (tokenOf taken) (readToken c cs) := by
  unfold lexToken
  rw [run_bind_ok (run_mark h)]
  fun_cases readToken c cs with
  | case1 c cs hdigit => rw [if_pos hdigit, run_number h]
  | case2 c cs hdigit hname => rw [if_neg hdigit, if_pos hname, run_name h]
  | case3 cs hdigit hname => rw [if_neg hdigit, if_neg hname, if_pos rfl, run_string h]
  | case4 cs hdigit hname hquote =>
    rw [if_neg hdigit, if_neg hname, if_neg hquote, if_pos rfl, run_char h]
  | case5 cs hdigit hname hquote happos =>
    have hahead : shaderOpening.isPrefixOf
        ('[' :: 'g' :: 'l' :: 's' :: 'l' :: '|' :: cs) = true := by
      simp [shaderOpening]
    rw [if_neg hdigit, if_neg hname, if_neg hquote, if_neg happos, if_pos rfl,
      run_bind_ok (run_isAhead h _), if_pos hahead, run_shader h]
  | case6 c cs hshader hdigit hname hquote happos =>
    -- A bracket may stand here, but no shader block begins with it.
    have hahead : (if c = '[' then isAhead shaderOpening else return false : Scanning Bool).run
        (past whole taken) = .ok (false, past whole taken) := by
      by_cases hc : c = '['
      · have hnone : shaderOpening.isPrefixOf (c :: cs) = false := by
          rw [Bool.eq_false_iff, Ne, List.isPrefixOf_iff_prefix]
          rintro ⟨rest, hrest⟩
          unfold shaderOpening at hrest
          injection hrest with _ hcs
          exact hshader rest hc hcs.symm
        rw [if_pos hc, run_isAhead h, hnone]
      · rw [if_neg hc]
        rfl
    rw [if_neg hdigit, if_neg hname, if_neg hquote, if_neg happos, run_bind_ok hahead,
      if_neg Bool.false_ne_true]
    unfold readMark
    cases mark? c with
    | some kind => exact run_mark? h
    | none =>
      dsimp only
      by_cases hsymbol : isSymbol c = true
      · rw [if_pos hsymbol, if_pos hsymbol, run_operator h, List.takeWhile_cons_of_pos hsymbol,
          List.dropWhile_cons_of_pos hsymbol]
      · rw [if_neg hsymbol, if_neg hsymbol, run_failHere h]
        rfl

/-- What a round of pieces comes to where a reader comes to a piece or a fault. -/
def pieceOutcome (whole taken : List Char) :
    Except LexFault (Cut (Option TokenKind)) →
      Checked LexError (Round Unit (Option Token) × Scanner) :=
  outcome whole taken fun cut =>
    match tokenOfPiece? taken cut with
    | some t => .done (some t)
    | none => .again ()

theorem run_bind_piece {m : Scanning (Option Token)} {r : Except LexFault (Cut (Option TokenKind))}
    (h : m.run (past whole taken) = outcome whole taken (tokenOfPiece? taken) r) :
    StateT.run (do
      match ← m with
      | some t => return .done (some t)
      | none => return .again ()) (past whole taken) = pieceOutcome whole taken r := by
  cases r with
  | error fault =>
    rw [run_bind_error h]
    rfl
  | ok cut =>
    rw [run_bind_ok h]
    unfold pieceOutcome outcome
    dsimp only
    cases tokenOfPiece? taken cut with
    | none => rfl
    | some t => rfl

/-- A scanner reads a piece as `readPiece` does. -/
theorem run_pieceRound (h : Splits whole taken (c :: cs)) :
    (pieceRound ()).run (past whole taken) = pieceOutcome whole taken (readPiece c cs) := by
  unfold pieceRound
  rw [run_bind_first h]
  dsimp only
  fun_cases readPiece c cs with
  | case1 c cs hblank =>
    rw [if_pos hblank, run_bind_ok (run_advance h)]
    rfl
  | case2 cs hblank =>
    rw [if_neg hblank, if_pos rfl, run_failHere h]
    rfl
  | case3 cs hblank htab =>
    have hline : ('-' :: '-' :: cs).takeWhile (· != '\n') =
        '-' :: '-' :: cs.takeWhile (· != '\n') := rfl
    rw [if_neg hblank, if_neg htab, run_bind_second h, if_pos ⟨rfl, rfl⟩,
      run_bind_ok (run_takeWhile h _), hline]
    rfl
  | case4 cs hblank htab =>
    rw [if_neg hblank, if_neg htab, run_bind_second h, if_neg (by simp), run_bind_second h,
      if_pos ⟨rfl, rfl⟩]
    exact run_bind_piece (run_comment_doc h)
  | case5 cs hplain hblank htab =>
    rw [if_neg hblank, if_neg htab, run_bind_second h, if_neg (by simp), run_bind_second h,
      if_pos ⟨rfl, rfl⟩]
    exact run_bind_piece (run_comment_plain h hplain)
  | case6 c cs hline hdoc hcomment hblank htab =>
    -- What starts neither a blank nor a comment is a token.
    have hdashes : ¬ (c = '-' ∧ cs.head? = some '-') := by
      rintro ⟨hc, hhead⟩
      exact head?_ne_some (fun rest => hline rest hc) hhead
    have hbraces : ¬ (c = '{' ∧ cs.head? = some '-') := by
      rintro ⟨hc, hhead⟩
      exact head?_ne_some (fun rest => hcomment rest hc) hhead
    have htoken := run_lexToken h
    rw [if_neg hblank, if_neg htab, run_bind_second h, if_neg hdashes, run_bind_second h,
      if_neg hbraces]
    cases hread : readToken c cs with
    | ok cut =>
      rw [hread] at htoken
      rw [run_bind_ok htoken]
      rfl
    | error fault =>
      rw [hread] at htoken
      rw [run_bind_error htoken]
      rfl

/-- At the end of the source there is no further token. -/
theorem run_nextToken_end (h : Splits whole taken []) :
    nextToken.run (past whole taken) = .ok (none, past whole taken) := by
  have hround : (pieceRound ()).run (past whole taken) = .ok (.done none, past whole taken) := by
    unfold pieceRound
    rw [run_bind_first_end h]
    rfl
  exact loop_done hround

end Scanner

theorem cutPieces_error {fault : LexFault} (h : readPiece c cs = .error fault)
    (done : List Piece) : cutPieces done (c :: cs) = .error fault := by
  rw [cutPieces]
  split
  · next fault' hfault =>
    rw [h] at hfault
    cases hfault
    rfl
  · next cut hcut =>
    rw [h] at hcut
    cases hcut

theorem cutPieces_ok {cut : Cut (Option TokenKind)} (h : readPiece c cs = .ok cut)
    (done : List Piece) :
    cutPieces done (c :: cs) = cutPieces (⟨cut.value, cut.text⟩ :: done) cut.rest := by
  rw [cutPieces]
  split
  · next fault hfault =>
    rw [h] at hfault
    cases hfault
  · next cut' hcut =>
    rw [h] at hcut
    cases hcut
    rfl

/-- What has been cut before only goes in front. -/
theorem cutPieces_done (done : List Piece) (cs : List Char) :
    cutPieces done cs = (cutPieces [] cs).map (done.reverse ++ ·) := by
  have hall : ∀ done', cutPieces done' cs = (cutPieces [] cs).map (done'.reverse ++ ·) := by
    fun_induction cutPieces done cs with
    | case1 => simp [cutPieces, Except.map]
    | case2 done c cs fault hfault =>
      intro done'
      rw [cutPieces_error hfault, cutPieces_error hfault]
      rfl
    | case3 done c cs cut hcut ih =>
      intro done'
      rw [cutPieces_ok hcut, cutPieces_ok hcut, ih, ih [_]]
      cases cutPieces [] cut.rest with
      | error => rfl
      | ok pieces => simp [Except.map]
  exact hall done

/-- The tokens of what is unread behind `taken`. -/
def Token.ofUnread (taken unread : List Char) : Except LexFault (List Token) :=
  (cutPieces [] unread).map (placePieces (Position.start.past taken))

/-- The end of a source as a token. -/
def Token.endOf (whole : List Char) : Token :=
  ⟨.eof, (Position.start.past whole).spanTo (Position.start.past whole)⟩

theorem Token.ofUnread_nil (taken : List Char) : ofUnread taken [] = .ok [endOf taken] := by
  simp [ofUnread, cutPieces, Except.map, placePieces, endOf]

theorem Token.ofUnread_error {fault : LexFault} (h : readPiece c cs = .error fault)
    (taken : List Char) : ofUnread taken (c :: cs) = .error fault := by
  unfold ofUnread
  rw [cutPieces_error h]
  rfl

/-- The tokens of a source are that of its first piece, if it is one, and those of the rest. -/
theorem Token.ofUnread_ok {cut : Cut (Option TokenKind)} (h : readPiece c cs = .ok cut)
    (taken : List Char) :
    ofUnread taken (c :: cs) =
      (ofUnread (taken ++ cut.text) cut.rest).map
        ((Scanner.tokenOfPiece? taken cut).toList ++ ·) := by
  unfold ofUnread
  rw [cutPieces_ok h, cutPieces_done, Position.past_append]
  unfold Scanner.tokenOfPiece?
  cases cutPieces [] cut.rest with
  | error => rfl
  | ok pieces =>
    cases hvalue : cut.value with
    | none => simp [Except.map, placePieces, Position.past_append]
    | some kind => simp [Except.map, placePieces, Position.past_append]

namespace Scanner

/-- What the next token is, by the tokens of what is unread. -/
theorem run_nextToken (h : Splits whole taken unread) :
    (∃ fault, Token.ofUnread taken unread = .error fault ∧
      nextToken.run (past whole taken) = .error (.report (.ofFault whole fault))) ∨
    (Token.ofUnread taken unread = .ok [Token.endOf whole] ∧
      nextToken.run (past whole taken) = .ok (none, past whole whole)) ∨
    (∃ t text rest, text ≠ [] ∧ unread = text ++ rest ∧
      Token.ofUnread taken unread = (Token.ofUnread (taken ++ text) rest).map (t :: ·) ∧
      nextToken.run (past whole taken) = .ok (some t, past whole (taken ++ text))) := by
  induction hlength : unread.length using Nat.strongRecOn generalizing taken unread with
  | _ n ih =>
  cases unread with
  | nil =>
    have hwhole := h.source
    rw [List.append_nil] at hwhole
    have hend := run_nextToken_end h
    right
    left
    rw [hwhole] at hend ⊢
    exact ⟨Token.ofUnread_nil whole, hend⟩
  | cons c cs =>
    have hround := run_pieceRound h
    cases hpiece : readPiece c cs with
    | error fault =>
      rw [hpiece] at hround
      exact .inl ⟨fault, Token.ofUnread_error hpiece taken, loop_halt hround⟩
    | ok cut =>
      obtain ⟨hsource, hne⟩ := readPiece_takes hpiece
      rw [Cut.source] at hsource
      have htokens := Token.ofUnread_ok hpiece taken
      have hsplit : Splits whole taken (cut.text ++ cut.rest) := hsource ▸ h
      rw [hpiece] at hround
      unfold pieceOutcome outcome at hround
      dsimp only at hround
      cases htoken : tokenOfPiece? taken cut with
      | some t =>
        rw [htoken] at hround htokens
        exact .inr (.inr ⟨t, cut.text, cut.rest, hne, hsource.symm, htokens, loop_done hround⟩)
      | none =>
        -- A blank or a comment: the token comes later.
        rw [htoken] at hround htokens
        have hnext : nextToken.run (past whole taken) =
            nextToken.run (past whole (taken ++ cut.text)) :=
          loop_again hround (left_lt hsplit hne)
        have hsame : Token.ofUnread taken (c :: cs) =
            Token.ofUnread (taken ++ cut.text) cut.rest := by
          rw [htokens]
          cases Token.ofUnread (taken ++ cut.text) cut.rest with
          | error => rfl
          | ok => rfl
        have hshort : cut.rest.length < n := by
          rw [← hlength]
          exact (readPiece_takes hpiece).length_lt
        rw [hsame, hnext]
        rcases ih _ hshort hsplit.ahead rfl with
          hfault | hend | ⟨t, text, rest, htext, hrest, hall, hrun⟩
        · exact .inl hfault
        · exact .inr (.inl hend)
        · refine .inr (.inr ⟨t, cut.text ++ text, rest, ?_, ?_, ?_, ?_⟩)
          · exact List.append_ne_nil_of_left_ne_nil hne text
          · rw [← hsource, hrest, List.append_assoc]
          · rw [hall, List.append_assoc]
          · rw [hrun, List.append_assoc]

/-- All tokens but the end are collected. -/
theorem run_tokenRounds (h : Splits whole taken unread) (tokens : List Token) :
    (∃ fault, Token.ofUnread taken unread = .error fault ∧
      (loop left tokenRound tokens).run (past whole taken) =
        .error (.report (.ofFault whole fault))) ∨
    (∃ more, Token.ofUnread taken unread = .ok (more ++ [Token.endOf whole]) ∧
      (loop left tokenRound tokens).run (past whole taken) =
        .ok (tokens ++ more, past whole whole)) := by
  induction hlength : unread.length using Nat.strongRecOn generalizing taken unread tokens with
  | _ n ih =>
  -- Next there is a fault, the end or a token, and behind a token less is unread.
  rcases run_nextToken h with ⟨fault, hall, hnext⟩ | ⟨hall, hnext⟩ |
    ⟨t, text, rest, hne, hunread, hall, hnext⟩
  · have hround : (tokenRound tokens).run (past whole taken) =
        .error (.report (.ofFault whole fault)) := by
      unfold tokenRound
      rw [run_bind_error hnext]
    exact .inl ⟨fault, hall, loop_halt hround⟩
  · have hround : (tokenRound tokens).run (past whole taken) =
        .ok (.done tokens, past whole whole) := by
      unfold tokenRound
      rw [run_bind_ok hnext]
      rfl
    refine .inr ⟨[], hall, ?_⟩
    rw [List.append_nil]
    exact loop_done hround
  · have hround : (tokenRound tokens).run (past whole taken) =
        .ok (.again (tokens ++ [t]), past whole (taken ++ text)) := by
      unfold tokenRound
      rw [run_bind_ok hnext]
      rfl
    rw [hunread] at h hlength
    have hshort : rest.length < n := by
      have hpos := List.length_pos_iff.2 hne
      rw [List.length_append] at hlength
      omega
    rw [hall, loop_again hround (left_lt h hne)]
    rcases ih _ hshort h.ahead (tokens ++ [t]) rfl with ⟨fault, hrest, hrun⟩ | ⟨more, hrest, hrun⟩
    · rw [hrest]
      exact .inl ⟨fault, rfl, hrun⟩
    · rw [hrest]
      refine .inr ⟨t :: more, rfl, ?_⟩
      rw [hrun, List.append_assoc]
      rfl

end Scanner

end Pieces

/-- **A scanner reads the tokens of a source without a fault**, and those that
    `Token.ofSource` reads. -/
theorem Scanner.run_tokenize {source : String}
    (hsize : byteSize source.toList < 2 ^ 32 - 1) :
    tokenize.run' (start source.toList) = (Token.ofSource source).mapError .report := by
  have h : Splits source.toList [] source.toList := ⟨rfl, hsize⟩
  have hcast : Checked.narrow (ε := LexError)
      (byteSize (past source.toList source.toList).source) =
      .ok (byteSize source.toList).toUInt32 := by
    apply Checked.narrow_eq
    change byteSize source.toList < 2 ^ 32
    omega
  have hread : Token.ofSource source =
      (Token.ofUnread [] source.toList).mapError (LexError.ofFault source.toList) := by
    unfold Token.ofSource Token.ofUnread
    dsimp only
    cases cutPieces [] source.toList with
    | ok => rfl
    | error => rfl
  rw [hread, start_eq]
  change Prod.fst <$> tokenize.run _ = _
  unfold tokenize
  rcases run_tokenRounds h [] with ⟨fault, hall, hrun⟩ | ⟨more, hall, hrun⟩
  · rw [run_bind_error hrun, hall]
    rfl
  · rw [run_bind_ok hrun, hall, run_bind_ok rfl, run_bind_ok (run_check hcast)]
    unfold Token.endOf
    rw [Position.past_start]
    rfl

end ElmIntake
