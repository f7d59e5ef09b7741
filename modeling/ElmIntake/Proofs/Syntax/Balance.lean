import ElmIntake.Proofs.Syntax.Unplaced
import ElmIntake.Syntax.Grammar

/-! # Balanced brackets

    When the brackets of some kinds of tokens are balanced, said without places, and
    what the functions on tokens make of such a stretch: the check of brackets passes
    over it, and so does the search for a separator, unless the separator stands
    outside all brackets.

    The inductions are on the tokens, with any brackets open before them. -/

namespace ElmIntake

/-- Tokens of these kinds that stand nowhere. -/
def bare (kinds : List TokenKind) : List Token := kinds.map (⟨·, .dummy⟩)

@[simp] theorem bare_nil : bare [] = [] := rfl

@[simp] theorem bare_cons (kind : TokenKind) (ks : List TokenKind) :
    bare (kind :: ks) = ⟨kind, .dummy⟩ :: bare ks := rfl

@[simp] theorem bare_append (ks ls : List TokenKind) : bare (ks ++ ls) = bare ks ++ bare ls :=
  List.map_append

@[simp] theorem kinds_bare (ks : List TokenKind) : kinds (bare ks) = ks := by
  simp [bare, kinds, Function.comp_def]

/-! ## Balance -/

/-- Do tokens of the kinds `ks` close the brackets `unclosed`, innermost first, and all
    that they open themselves? Those outside all brackets must be as `outside` says. -/
def closes (outside : TokenKind → Bool) (unclosed : List Bracket) : List TokenKind → Bool
  | [] => unclosed.isEmpty
  | kind :: ks =>
    match kind with
    | .opening bracket => closes outside (bracket :: unclosed) ks
    | .closing bracket => unclosed.head? == some bracket && closes outside unclosed.tail ks
    | kind => (!unclosed.isEmpty || outside kind) && closes outside unclosed ks

/-- Are the brackets balanced, with only such tokens outside them? -/
def isBalanced (outside : TokenKind → Bool) (ks : List TokenKind) : Bool := closes outside [] ks

/-- Is this a bracket, the one that closes it, and what is between them? -/
def isGroup : List TokenKind → Bool
  | .opening bracket :: ks =>
    ks.getLast? == some (.closing bracket) && isBalanced (fun _ => true) ks.dropLast
  | _ => false

section

variable {outside wide : TokenKind → Bool} {unclosed : List Bracket} {kind separator : TokenKind}
  {ks ls : List TokenKind}

/-- The three ways in which balance goes on behind a first token. -/
theorem cases_of_closes (h : closes outside unclosed (kind :: ks) = true) :
    (∃ bracket, kind = .opening bracket ∧ closes outside (bracket :: unclosed) ks = true) ∨
      (∃ bracket outer, kind = .closing bracket ∧ unclosed = bracket :: outer ∧
        closes outside outer ks = true) ∨
      kind.isOpening = false ∧ kind.isClosing = false ∧
        (unclosed = [] → outside kind = true) ∧ closes outside unclosed ks = true := by
  cases kind with
  | opening bracket => exact .inl ⟨bracket, rfl, h⟩
  | closing bracket =>
    unfold closes at h
    rw [Bool.and_eq_true, beq_iff_eq] at h
    obtain ⟨hhead, hrest⟩ := h
    obtain ⟨outer, rfl⟩ := List.head?_eq_some_iff.1 hhead
    exact .inr (.inl ⟨bracket, outer, rfl, rfl, hrest⟩)
  | _ =>
    unfold closes at h
    dsimp only at h
    rw [Bool.and_eq_true] at h
    refine .inr (.inr ⟨rfl, rfl, ?_, h.2⟩)
    rintro rfl
    exact h.1

/-- A token that is no bracket goes on with what is behind it. -/
theorem closes_plain (hopen : kind.isOpening = false) (hclose : kind.isClosing = false) :
    closes outside unclosed (kind :: ks) =
      ((!unclosed.isEmpty || outside kind) && closes outside unclosed ks) := by
  cases kind with
  | opening bracket => cases hopen
  | closing bracket => cases hclose
  | _ => rfl

/-- The brackets behind a first token are as many as the depth there, whatever else is
    open around them. -/
theorem exists_of_closes (h : closes outside unclosed (kind :: ks) = true) :
    ∃ outer : List Bracket,
      (∀ n, depthAfter (unclosed.length + n) kind = outer.length + n) ∧
        closes outside outer ks = true := by
  rcases cases_of_closes h with ⟨bracket, rfl, hks⟩ | ⟨bracket, outer, rfl, rfl, hks⟩ |
    ⟨hopen, hclose, -, hks⟩
  · refine ⟨bracket :: unclosed, fun n => ?_, hks⟩
    show unclosed.length + n + 1 = unclosed.length + 1 + n
    omega
  · refine ⟨outer, fun n => ?_, hks⟩
    show outer.length + 1 + n - 1 = outer.length + n
    omega
  · refine ⟨unclosed, fun n => ?_, hks⟩
    unfold depthAfter
    rw [hopen, hclose]
    rfl

theorem depthAfter_of_closes (h : closes outside unclosed (kind :: ks) = true) :
    ∃ outer : List Bracket, depthAfter unclosed.length kind = outer.length ∧
      closes outside outer ks = true := by
  obtain ⟨outer, hdepth, hks⟩ := exists_of_closes h
  exact ⟨outer, hdepth 0, hks⟩

/-- Balance goes on with more brackets open around it, which what is behind closes. -/
theorem closes_extend {outer : List Bracket} (h : closes outside unclosed ks = true)
    (hwide : outer = [] → ∀ kind, outside kind = true → wide kind = true)
    (hls : closes wide outer ls = true) : closes wide (unclosed ++ outer) (ks ++ ls) = true := by
  induction ks generalizing unclosed with
  | nil =>
    obtain rfl := List.isEmpty_iff.1 h
    exact hls
  | cons kind ks ih =>
    rw [List.cons_append]
    rcases cases_of_closes h with ⟨bracket, rfl, hks⟩ | ⟨bracket, inner, rfl, rfl, hks⟩ |
      ⟨hopen, hclose, hout, hks⟩
    · exact ih hks
    · show (_ && closes wide (inner ++ outer) (ks ++ ls)) = true
      rw [ih hks, List.cons_append, List.head?_cons, beq_self_eq_true]
      rfl
    · rw [closes_plain hopen hclose, ih hks, Bool.and_true]
      cases unclosed with
      | nil =>
        cases outer with
        | nil => exact hwide rfl kind (hout rfl)
        | cons bracket outer => rfl
      | cons bracket inner => rfl

theorem isBalanced_append (hks : isBalanced outside ks = true)
    (hls : isBalanced outside ls = true) : isBalanced outside (ks ++ ls) = true :=
  closes_extend hks (fun _ _ h => h) hls

theorem isBalanced_weaken (h : isBalanced outside ks = true)
    (hwide : ∀ kind, outside kind = true → wide kind = true) : isBalanced wide ks = true := by
  have hnil := closes_extend h (fun _ => hwide) (rfl : closes wide [] [] = true)
  rw [List.append_nil ks] at hnil
  exact hnil

theorem isBalanced_plain (hopen : kind.isOpening = false) (hclose : kind.isClosing = false)
    (hout : outside kind = true) (hks : isBalanced outside ks = true) :
    isBalanced outside (kind :: ks) = true := by
  unfold isBalanced at hks ⊢
  rw [closes_plain hopen hclose, hks, hout]
  rfl

theorem isBalanced_flatten {parts : List (List TokenKind)}
    (h : ∀ ks ∈ parts, isBalanced outside ks = true) : isBalanced outside parts.flatten = true := by
  induction parts with
  | nil => rfl
  | cons ks parts ih =>
    obtain ⟨hks, hparts⟩ := List.forall_mem_cons.1 h
    exact isBalanced_append hks (ih hparts)

theorem exists_of_isGroup (h : isGroup ks = true) :
    ∃ bracket inner, ks = .opening bracket :: (inner ++ [.closing bracket]) ∧
      isBalanced (fun _ => true) inner = true := by
  unfold isGroup at h
  split at h
  · next bracket rest =>
    rw [Bool.and_eq_true, beq_iff_eq] at h
    obtain ⟨inner, rfl⟩ := List.getLast?_eq_some_iff.1 h.1
    rw [List.dropLast_concat] at h
    exact ⟨bracket, inner, rfl, h.2⟩
  · cases h

/-- Nothing of a group stands outside all brackets. -/
theorem isBalanced_of_isGroup (h : isGroup ks = true) : isBalanced outside ks = true := by
  obtain ⟨bracket, inner, rfl, hinner⟩ := exists_of_isGroup h
  have hclosing : closes outside [bracket] [.closing bracket] = true := by
    show (_ && true) = true
    rw [List.head?_cons, beq_self_eq_true]
    rfl
  exact closes_extend hinner nofun hclosing

/-! ## The check of brackets -/

theorem checkBalanced_bare {unclosed : List (Bracket × Span)}
    (h : closes outside (unclosed.map (·.1)) ks = true) :
    checkBalanced unclosed (bare ks) = .ok () := by
  induction ks generalizing unclosed with
  | nil =>
    cases unclosed with
    | nil => rfl
    | cons first outer => cases h
  | cons kind ks ih =>
    rcases cases_of_closes h with ⟨bracket, rfl, hks⟩ | ⟨bracket, outer, rfl, houter, hks⟩ |
      ⟨hopen, hclose, -, hks⟩
    · exact ih hks
    · cases unclosed with
      | nil => cases houter
      | cons first unclosed =>
        obtain ⟨rfl, rfl⟩ := List.cons.inj houter
        rw [bare_cons, checkBalanced, if_pos rfl]
        exact ih hks
    · have hskip :
          checkBalanced unclosed (bare (kind :: ks)) = checkBalanced unclosed (bare ks) := by
        cases kind with
        | opening bracket => cases hopen
        | closing bracket => cases hclose
        | _ => rfl
      rw [hskip]
      exact ih hks

theorem balanced_bare (h : isBalanced outside ks = true) : balanced (bare ks) = .ok () :=
  checkBalanced_bare h

/-! ## Separators -/

/-- No separator is outside all brackets. -/
theorem not_separator_of_closes (h : closes (· != separator) unclosed (kind :: ks) = true)
    (hopen : separator.isOpening = false) (hclose : separator.isClosing = false) :
    ¬ (unclosed.length = 0 ∧ kind = separator) := by
  rintro ⟨hlength, rfl⟩
  obtain rfl := List.length_eq_zero_iff.1 hlength
  rw [closes_plain hopen hclose, bne_self_eq_false] at h
  cases h

/-- **The search for a separator** passes over a balanced stretch without any. -/
theorem splitAtTop?_bare (h : closes (· != separator) unclosed ks = true)
    (hopen : separator.isOpening = false) (hclose : separator.isClosing = false)
    (more : List Token) :
    splitAtTop? separator unclosed.length (bare ks ++ ⟨separator, .dummy⟩ :: more) =
      some (bare ks, ⟨separator, .dummy⟩, more) := by
  induction ks generalizing unclosed with
  | nil =>
    obtain rfl := List.isEmpty_iff.1 h
    rw [bare_nil, List.nil_append, splitAtTop?, if_pos ⟨rfl, rfl⟩]
  | cons kind ks ih =>
    have hother := not_separator_of_closes h hopen hclose
    obtain ⟨outer, hdepth, hks⟩ := depthAfter_of_closes h
    rw [bare_cons, List.cons_append, splitAtTop?, if_neg hother, hdepth, ih hks]
    rfl

theorem partsAtTop_bare_alone (h : closes (· != separator) unclosed ks = true)
    (hopen : separator.isOpening = false) (hclose : separator.isClosing = false) :
    partsAtTop separator unclosed.length (bare ks) = [bare ks] := by
  induction ks generalizing unclosed with
  | nil => rfl
  | cons kind ks ih =>
    have hother := not_separator_of_closes h hopen hclose
    obtain ⟨outer, hdepth, hks⟩ := depthAfter_of_closes h
    rw [bare_cons, partsAtTop, if_neg hother, hdepth, ih hks]

theorem partsAtTop_bare_before (h : closes (· != separator) unclosed ks = true)
    (hopen : separator.isOpening = false) (hclose : separator.isClosing = false)
    (more : List Token) :
    partsAtTop separator unclosed.length (bare ks ++ ⟨separator, .dummy⟩ :: more) =
      bare ks :: partsAtTop separator 0 more := by
  induction ks generalizing unclosed with
  | nil =>
    obtain rfl := List.isEmpty_iff.1 h
    rw [bare_nil, List.nil_append, partsAtTop, if_pos ⟨rfl, rfl⟩]
  | cons kind ks ih =>
    have hother := not_separator_of_closes h hopen hclose
    obtain ⟨outer, hdepth, hks⟩ := depthAfter_of_closes h
    rw [bare_cons, List.cons_append, partsAtTop, if_neg hother, hdepth, ih hks]

/-- **Parts with separators between them** fall apart again. -/
theorem partsAtTop_bare {first : List TokenKind} {others : List (List TokenKind)}
    (h : ∀ ks ∈ first :: others, isBalanced (· != separator) ks = true)
    (hopen : separator.isOpening = false) (hclose : separator.isClosing = false) :
    partsAtTop separator 0 (bare (first ++ others.flatMap (separator :: ·))) =
      bare first :: others.map bare := by
  induction others generalizing first with
  | nil =>
    rw [List.flatMap_nil, List.append_nil]
    exact partsAtTop_bare_alone (h first List.mem_cons_self) hopen hclose
  | cons next others ih =>
    obtain ⟨hfirst, hothers⟩ := List.forall_mem_cons.1 h
    have hparts := partsAtTop_bare_before hfirst hopen hclose
      (bare (next ++ others.flatMap (separator :: ·)))
    rw [ih hothers] at hparts
    simpa using hparts

/-! ## Atoms -/

theorem atomsFrom_ne_nil (depth : Nat) (t : Token) (tokens : List Token) :
    atomsFrom depth (t :: tokens) ≠ [] := by
  unfold atomsFrom
  dsimp only
  split
  · exact List.cons_ne_nil _ _
  · split <;> exact List.cons_ne_nil _ _

/-- Balanced stretches fall apart into atoms one by one. -/
theorem atomsFrom_bare_append (h : closes outside unclosed ks = true) (more : List Token) :
    atomsFrom unclosed.length (bare ks ++ more) =
      atomsFrom unclosed.length (bare ks) ++ atomsFrom 0 more := by
  induction ks generalizing unclosed with
  | nil =>
    obtain rfl := List.isEmpty_iff.1 h
    rfl
  | cons kind ks ih =>
    obtain ⟨outer, hdepth, hks⟩ := depthAfter_of_closes h
    rw [bare_cons, List.cons_append, atomsFrom, atomsFrom]
    dsimp only
    rw [hdepth]
    cases outer with
    | nil =>
      have hrest := ih hks
      rw [List.length_nil] at hrest
      rw [List.length_nil, if_pos rfl, if_pos rfl, hrest, List.cons_append]
    | cons bracket outer =>
      -- A bracket is still open, so there are more tokens to join.
      have hdeep : (bracket :: outer).length ≠ 0 := Nat.succ_ne_zero _
      rw [if_neg hdeep, if_neg hdeep, ih hks]
      cases ks with
      | nil => cases hks
      | cons next ks =>
        cases hatoms : atomsFrom (bracket :: outer).length (bare (next :: ks)) with
        | nil => exact absurd hatoms (atomsFrom_ne_nil _ _ _)
        | cons atom atoms => rfl

theorem atoms_bare_flatten {parts : List (List TokenKind)}
    (h : ∀ ks ∈ parts, isBalanced outside ks = true) :
    atoms (bare parts.flatten) = parts.flatMap fun ks => atoms (bare ks) := by
  induction parts with
  | nil => rfl
  | cons ks parts ih =>
    obtain ⟨hks, hparts⟩ := List.forall_mem_cons.1 h
    have hatoms := atomsFrom_bare_append hks (bare parts.flatten)
    rw [List.flatten_cons, bare_append, List.flatMap_cons, ← ih hparts]
    exact hatoms

/-- What stands inside a bracket joins the one that closes it. -/
theorem exists_atomsFrom_closing (h : closes outside unclosed ks = true) (bracket : Bracket) :
    ∃ atom, atomsFrom (unclosed.length + 1) (bare (ks ++ [.closing bracket])) = [atom] ∧
      atom.tokens = bare (ks ++ [.closing bracket]) := by
  induction ks generalizing unclosed with
  | nil =>
    obtain rfl := List.isEmpty_iff.1 h
    exact ⟨⟨⟨.closing bracket, .dummy⟩, []⟩, rfl, rfl⟩
  | cons kind ks ih =>
    obtain ⟨outer, hdepth, hks⟩ := exists_of_closes h
    obtain ⟨atom, hatom, htokens⟩ := ih hks
    refine ⟨⟨⟨kind, .dummy⟩, atom.tokens⟩, ?_, ?_⟩
    · rw [List.cons_append, bare_cons, atomsFrom]
      dsimp only
      rw [hdepth 1, if_neg (Nat.succ_ne_zero _), hatom]
    · rw [htokens]
      rfl

theorem exists_atoms_of_isGroup (h : isGroup ks = true) :
    ∃ atom, atoms (bare ks) = [atom] ∧ atom.tokens = bare ks := by
  obtain ⟨bracket, inner, rfl, hinner⟩ := exists_of_isGroup h
  obtain ⟨atom, hatom, htokens⟩ := exists_atomsFrom_closing hinner bracket
  refine ⟨⟨⟨.opening bracket, .dummy⟩, atom.tokens⟩, ?_, ?_⟩
  · rw [List.length_nil] at hatom
    unfold atoms
    rw [bare_cons, atomsFrom]
    dsimp only
    rw [show depthAfter 0 (.opening bracket) = 0 + 1 from rfl, if_neg (Nat.succ_ne_zero _), hatom]
  · rw [htokens]
    rfl

end

end ElmIntake
