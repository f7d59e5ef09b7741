import ElmIntake.Proofs.Checked.Machine
import ElmIntake.Proofs.Syntax.PlacedItems

/-! # Groups of tokens by index

    How tokens fall apart at separators and into atoms, told by indices: a search
    gives the index of what it finds, and the parts are ranges. Brackets are counted
    in words. Main statements: `partsOf_eq` and `atomsOf_eq`, by which no index is
    out of its list and the parts are those of `partsAtTop` and `atoms`. -/

namespace ElmIntake

open Machine (check loop run_check run_bind_ok run_bind_again loop_done loop_again)

namespace Checked

/-! ## Searching -/

/-- The number of brackets open after a token. -/
def depthAfter (depth : Nat) (kind : TokenKind) : Checked SyntaxError Nat :=
  if kind.isOpening then word (depth + 1)
  else if kind.isClosing then .ok (depth - 1)
  else .ok depth

/-- The index of the first token outside all brackets that is of the kind
    `separator`, `index` tokens being before those of the list. -/
def indexAtTop? (separator : TokenKind) (depth index : Nat) :
    List Token → Checked SyntaxError (Option Nat)
  | [] => .ok none
  | t :: tokens => do
    if !t.kind.isOpening && !t.kind.isClosing && depth == 0 && t.kind == separator then
      return some index
    else
      let depth ← depthAfter depth t.kind
      let index ← word (index + 1)
      indexAtTop? separator depth index tokens

/-- Takes one more part away, up to the next separator. -/
def partRound (separator : TokenKind) (parts : List (List Token)) :
    Machine (List Token) SyntaxError (Round (List (List Token)) (List (List Token))) := do
  let rest ← get
  match ← check (indexAtTop? separator 0 0 rest) with
  | some index =>
    let part ← check (slice rest 0 index)
    let next ← check (word (index + 1))
    set (← check (sliceFrom rest next))
    return .again (parts ++ [part])
  | none => return .done (parts ++ [rest])

/-- The parts between the separators outside all brackets. -/
def partsOf (separator : TokenKind) (tokens : List Token) :
    Checked SyntaxError (List (List Token)) :=
  (loop List.length (partRound separator) []).run' tokens

/-! ## Atoms -/

/-- Goes over one more token of an atom, with `depth` brackets open before it. -/
def tokenRound (tokens : List Token) (depth : Nat) : Machine Nat SyntaxError (Round Nat Unit) := do
  let index ← get
  let t ← check (fetch tokens index)
  let depth ← check (depthAfter depth t.kind)
  let index ← check (word (index + 1))
  set index
  if depth = 0 ∨ tokens.length ≤ index then return .done () else return .again depth

/-- Goes over one more atom. -/
def atomRound (tokens : List Token) (result : List (List Token)) :
    Machine Nat SyntaxError (Round (List (List Token)) (List (List Token))) := do
  let first ← get
  if first < tokens.length then
    loop (tokens.length - ·) (tokenRound tokens) 0
    let stop ← get
    let atom ← check (slice tokens first stop)
    return .again (result ++ [atom])
  else return .done result

/-- The atoms of a list of tokens, as ranges of it. -/
def atomsOf (tokens : List Token) : Checked SyntaxError (List (List Token)) :=
  (loop (tokens.length - ·) (atomRound tokens) []).run' 0

/-! ## Parts -/

variable {separator : TokenKind} {depth index : Nat} {tokens rest : List Token} {t : Token}

theorem depthAfter_eq (hdepth : depth + 1 < 2 ^ 64) (kind : TokenKind) :
    depthAfter depth kind = .ok (ElmIntake.depthAfter depth kind) := by
  unfold depthAfter ElmIntake.depthAfter
  split
  · exact word_eq hdepth
  · split <;> rfl

theorem depthAfter_le (depth : Nat) (kind : TokenKind) :
    ElmIntake.depthAfter depth kind ≤ depth + 1 := by
  unfold ElmIntake.depthAfter
  split
  · exact Nat.le_refl _
  · split <;> omega

/-- The index is the number of the tokens before the one that is found. -/
theorem indexAtTop?_eq (hopen : separator.isOpening = false)
    (hclose : separator.isClosing = false) (hdepth : depth + tokens.length < 2 ^ 64)
    (hindex : index + tokens.length < 2 ^ 64) :
    indexAtTop? separator depth index tokens =
      .ok ((splitAtTop? separator depth tokens).map fun found => index + found.1.length) := by
  induction tokens generalizing depth index with
  | nil => rfl
  | cons t tokens ih =>
    rw [List.length_cons] at hdepth hindex
    -- A separator is no bracket, so that its test never fails for being one.
    have hfound : (!t.kind.isOpening && !t.kind.isClosing && depth == 0 &&
        t.kind == separator) = true ↔ depth = 0 ∧ t.kind = separator := by
      constructor
      · intro h
        simp only [Bool.and_eq_true, beq_iff_eq] at h
        exact ⟨h.1.2, h.2⟩
      · rintro ⟨rfl, hkind⟩
        simp [hkind, hopen, hclose]
    rw [indexAtTop?, splitAtTop?]
    by_cases h : depth = 0 ∧ t.kind = separator
    · rw [if_pos (hfound.2 h), if_pos h]
      rfl
    · have hle := depthAfter_le depth t.kind
      rw [if_neg (fun hc => h (hfound.1 hc)), if_neg h, bind_ok (depthAfter_eq (by omega) _),
        bind_ok (word_eq (by omega)), ih (by omega) (by omega), Option.map_map]
      congr 2
      funext found
      change index + 1 + found.1.length = index + (found.1.length + 1)
      omega

/-- Parts are split off one after the other. -/
theorem partsAtTop_eq (separator : TokenKind) (depth : Nat) (tokens : List Token) :
    partsAtTop separator depth tokens =
      match splitAtTop? separator depth tokens with
      | none => [tokens]
      | some (before, _, after) => before :: partsAtTop separator 0 after := by
  induction tokens generalizing depth with
  | nil => rfl
  | cons t tokens ih =>
    rw [partsAtTop, splitAtTop?]
    by_cases h : depth = 0 ∧ t.kind = separator
    · rw [if_pos h, if_pos h]
    · rw [if_neg h, if_neg h, ih]
      cases splitAtTop? separator (ElmIntake.depthAfter depth t.kind) tokens with
      | none => rfl
      | some found => rfl

theorem run_partRounds (hopen : separator.isOpening = false)
    (hclose : separator.isClosing = false) (hlength : rest.length < 2 ^ 63)
    (parts : List (List Token)) :
    ∃ last, (loop List.length (partRound separator) parts).run rest =
      .ok (parts ++ partsAtTop separator 0 rest, last) := by
  -- What is left behind a separator is a suffix, so the induction is on the length.
  induction hn : rest.length using Nat.strongRecOn generalizing rest parts with
  | _ n ih =>
  have hindex : indexAtTop? separator 0 0 rest = _ :=
    indexAtTop?_eq hopen hclose (by omega) (by omega)
  rw [partsAtTop_eq]
  cases hsplit : splitAtTop? separator 0 rest with
  | none =>
    rw [hsplit] at hindex
    have hround : (partRound separator parts).run rest = .ok (.done (parts ++ [rest]), rest) := by
      unfold partRound
      rw [run_bind_ok rfl, run_bind_ok (run_check hindex)]
      rfl
    exact ⟨rest, loop_done hround⟩
  | some found =>
    obtain ⟨before, t, after⟩ := found
    have hrest := splitAtTop?_eq hsplit
    rw [hsplit, Option.map_some, Nat.zero_add] at hindex
    have hshort : after.length < rest.length := by
      rw [hrest, List.length_append, List.length_cons]
      omega
    have hpart : slice (ε := SyntaxError) rest 0 before.length = .ok before :=
      hrest ▸ slice_before before t after
    have hnext : sliceFrom (ε := SyntaxError) rest (before.length + 1) = .ok after :=
      hrest ▸ sliceFrom_behind before t after
    have hcount : before.length + 1 < 2 ^ 64 := by
      rw [hrest, List.length_append, List.length_cons] at hlength
      omega
    have hround : (partRound separator parts).run rest =
        .ok (.again (parts ++ [before]), after) := by
      unfold partRound
      rw [run_bind_ok rfl, run_bind_ok (run_check hindex)]
      dsimp only
      rw [run_bind_ok (run_check hpart), run_bind_ok (run_check (word_eq hcount)),
        run_bind_ok (run_check hnext)]
      rfl
    obtain ⟨last, hrun⟩ := ih _ (hn ▸ hshort) (by omega) (parts ++ [before]) rfl
    refine ⟨last, ?_⟩
    rw [loop_again hround hshort, hrun, List.append_assoc]
    rfl

/-- No index in the search for parts is out of bounds, and the parts are those between the
    separators. -/
theorem partsOf_eq (hopen : separator.isOpening = false) (hclose : separator.isClosing = false)
    (hlength : tokens.length < 2 ^ 63) :
    partsOf separator tokens = .ok (partsAtTop separator 0 tokens) := by
  obtain ⟨last, hrun⟩ := run_partRounds hopen hclose hlength []
  unfold partsOf StateT.run'
  change Prod.fst <$> (loop List.length (partRound separator) []).run tokens = _
  rw [hrun]
  rfl

/-! ## Atoms one by one -/

theorem run_tokenRound {before : List Token} (htokens : tokens = before ++ t :: rest)
    (hlength : tokens.length < 2 ^ 63) (hdepth : depth + 1 < 2 ^ 64) :
    (tokenRound tokens depth).run before.length =
      .ok (if ElmIntake.depthAfter depth t.kind = 0 ∨ rest = [] then .done ()
        else .again (ElmIntake.depthAfter depth t.kind), before.length + 1) := by
  have hcount : tokens.length = before.length + 1 + rest.length := by
    rw [htokens, List.length_append, List.length_cons]
    omega
  have hfetch : fetch (ε := SyntaxError) tokens before.length = .ok t :=
    htokens ▸ fetch_behind before t rest
  have hend : tokens.length ≤ before.length + 1 ↔ rest = [] := by
    rw [← List.length_eq_zero_iff]
    omega
  unfold tokenRound
  rw [run_bind_ok rfl, run_bind_ok (run_check hfetch),
    run_bind_ok (run_check (depthAfter_eq hdepth _)),
    run_bind_ok (run_check (word_eq (by omega))), run_bind_ok rfl]
  by_cases h : ElmIntake.depthAfter depth t.kind = 0 ∨ rest = []
  · rw [if_pos h, if_pos (h.imp_right hend.2)]
    rfl
  · rw [if_neg h, if_neg (fun hc => h (hc.imp_right hend.1))]
    rfl

theorem atomsFrom_of_zero (h : ElmIntake.depthAfter depth t.kind = 0) :
    atomsFrom depth (t :: rest) = ⟨t, []⟩ :: atomsFrom 0 rest := by
  conv_lhs => unfold atomsFrom
  exact if_pos h

theorem atomsFrom_of_ne (h : ElmIntake.depthAfter depth t.kind ≠ 0) :
    atomsFrom depth (t :: rest) =
      match atomsFrom (ElmIntake.depthAfter depth t.kind) rest with
      | [] => [⟨t, []⟩]
      | atom :: atoms => ⟨t, atom.tokens⟩ :: atoms := by
  conv_lhs => unfold atomsFrom
  exact if_neg h

/-- The first atom of some tokens, behind which the next one begins. -/
theorem run_tokenRounds {before : List Token} (htokens : tokens = before ++ t :: rest)
    (hlength : tokens.length < 2 ^ 63) (hdepth : depth + rest.length + 1 < 2 ^ 64) :
    ∃ atom after, t :: rest = atom.tokens ++ after ∧
      atomsFrom depth (t :: rest) = atom :: atomsFrom 0 after ∧
      (loop (tokens.length - ·) (tokenRound tokens) depth).run before.length =
        .ok ((), before.length + atom.tokens.length) := by
  induction rest generalizing before t depth with
  | nil =>
    have hround := run_tokenRound htokens hlength (show depth + 1 < 2 ^ 64 from hdepth)
    rw [if_pos (.inr rfl)] at hround
    refine ⟨⟨t, []⟩, [], rfl, ?_, loop_done hround⟩
    by_cases hzero : ElmIntake.depthAfter depth t.kind = 0
    · exact atomsFrom_of_zero hzero
    · exact atomsFrom_of_ne hzero
  | cons u rest ih =>
    have hle := depthAfter_le depth t.kind
    have hround := run_tokenRound htokens hlength (show depth + 1 < 2 ^ 64 by omega)
    rw [List.length_cons] at hdepth
    by_cases hzero : ElmIntake.depthAfter depth t.kind = 0
    · rw [if_pos (.inl hzero)] at hround
      exact ⟨⟨t, []⟩, u :: rest, rfl, atomsFrom_of_zero hzero, loop_done hround⟩
    · -- Within brackets the token joins the atom of those behind it.
      rw [if_neg (by simp [hzero])] at hround
      have hmore : tokens = (before ++ [t]) ++ u :: rest := by
        rw [htokens, List.append_assoc]
        rfl
      have hleft : tokens.length - (before.length + 1) < tokens.length - before.length := by
        rw [hmore, List.length_append, List.length_append, List.length_singleton]
        omega
      obtain ⟨atom, after, hrest, hatoms, hrun⟩ :=
        ih hmore (show ElmIntake.depthAfter depth t.kind + rest.length + 1 < 2 ^ 64 by omega)
      rw [List.length_append, List.length_singleton] at hrun
      refine ⟨⟨t, atom.tokens⟩, after, ?_, ?_, ?_⟩
      · rw [hrest]
        rfl
      · rw [atomsFrom_of_ne hzero, hatoms]
      · have hcount : before.length + 1 + atom.tokens.length =
            before.length + (Atom.mk t atom.tokens).tokens.length := by
          rw [show (Atom.mk t atom.tokens).tokens = t :: atom.tokens from rfl, List.length_cons]
          omega
        rw [loop_again hround hleft, hrun, hcount]

theorem run_atomRounds {before : List Token} (htokens : tokens = before ++ rest)
    (hlength : tokens.length < 2 ^ 63) (result : List (List Token)) :
    ∃ last, (loop (tokens.length - ·) (atomRound tokens) result).run before.length =
      .ok (result ++ (atomsFrom 0 rest).map Atom.tokens, last) := by
  -- An atom may take any number of tokens, so the induction is on the length.
  induction hn : rest.length using Nat.strongRecOn generalizing before rest result with
  | _ n ih =>
  have hcount := congrArg List.length htokens
  rw [List.length_append] at hcount
  cases rest with
  | nil =>
    have hround : (atomRound tokens result).run before.length =
        .ok (.done result, before.length) := by
      unfold atomRound
      rw [run_bind_ok rfl, if_neg (by rw [hcount]; exact Nat.lt_irrefl _)]
      rfl
    refine ⟨before.length, ?_⟩
    rw [loop_done hround, show atomsFrom 0 [] = [] from rfl, List.map_nil, List.append_nil]
  | cons t rest =>
    rw [List.length_cons] at hcount
    obtain ⟨atom, after, hrest, hatoms, hrun⟩ :=
      run_tokenRounds htokens hlength (show 0 + rest.length + 1 < 2 ^ 64 by omega)
    have hslice : slice (ε := SyntaxError) tokens before.length
        (before.length + atom.tokens.length) = .ok atom.tokens := by
      rw [htokens, hrest, ← List.append_assoc]
      exact slice_eq before atom.tokens after
    have hround : (atomRound tokens result).run before.length =
        .ok (.again (result ++ [atom.tokens]), before.length + atom.tokens.length) := by
      unfold atomRound
      rw [run_bind_ok rfl, if_pos (by omega), run_bind_ok hrun, run_bind_ok rfl,
        run_bind_ok (run_check hslice)]
      rfl
    have hmore : tokens = (before ++ atom.tokens) ++ after := by
      rw [htokens, hrest, List.append_assoc]
    have hsize : rest.length + 1 = atom.tokens.length + after.length := by
      rw [← List.length_cons, hrest, List.length_append]
    have hpos : 0 < atom.tokens.length := Nat.succ_pos _
    obtain ⟨last, hrest'⟩ := ih _ (by rw [← hn, List.length_cons]; omega) hmore
      (result ++ [atom.tokens]) rfl
    refine ⟨last, ?_⟩
    rw [List.length_append] at hrest'
    rw [loop_again hround (by omega), hrest', hatoms, List.map_cons, List.append_assoc]
    rfl

/-- No index in the search for atoms is out of bounds, and the ranges are those of the atoms. -/
theorem atomsOf_eq (hlength : tokens.length < 2 ^ 63) :
    atomsOf tokens = .ok ((atoms tokens).map Atom.tokens) := by
  obtain ⟨last, hrun⟩ := run_atomRounds (List.nil_append tokens).symm hlength []
  unfold atomsOf StateT.run'
  change Prod.fst <$> (loop (tokens.length - ·) (atomRound tokens) []).run 0 = _
  rw [show (0 : Nat) = ([] : List Token).length from rfl, hrun]
  rfl

end Checked

end ElmIntake
