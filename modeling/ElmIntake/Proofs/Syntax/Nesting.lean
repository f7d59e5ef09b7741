import ElmIntake.Proofs.Syntax.PlacedItems
import ElmIntake.Proofs.Syntax.Balance

/-! # Nested brackets

    What it means that brackets are nested, said once and without counting: each one
    that is opened is closed by one of its kind, and what stands between the two is
    nested itself (`WellNested`).

    The functions on tokens keep count instead, each in its own way: a stack of open
    brackets (`checkBalanced`), the number of open braces (`closingBrace?`), or a depth
    that stops at zero (`splitAtTop?`, `partsAtTop`, `atomsFrom`). All of them agree with
    the nesting:

    * the brace that closes is the one behind nested braces (`exists_of_closingBrace?`,
      `closingBrace?_bare`);
    * the check of brackets passes just if they are nested (`balanced_iff`);
    * in nested tokens the depth is zero outside all brackets and only there
      (`depthBehind_eq_zero_iff`), so they are split there (`splitAtTop?_iff`, `pieces_iff`);
    * nested tokens fall apart into single ones and complete groups
      (`isAtom_of_mem_atoms`). -/

namespace ElmIntake

/-! ## Nesting -/

/-- **Are the brackets nested**, of those that count? -/
inductive WellNested (counts : Bracket → Prop) : List TokenKind → Prop
  | nil : WellNested counts []
  /-- A token that is no bracket, or one that does not count. -/
  | plain {kind : TokenKind} {ks : List TokenKind} (hopen : ∀ b, counts b → kind ≠ .opening b)
      (hclose : ∀ b, counts b → kind ≠ .closing b) (hks : WellNested counts ks) :
      WellNested counts (kind :: ks)
  | group {bracket : Bracket} {inner ks : List TokenKind} (hcounts : counts bracket)
      (hinner : WellNested counts inner) (hks : WellNested counts ks) :
      WellNested counts (.opening bracket :: (inner ++ .closing bracket :: ks))

/-- Nested brackets, behind which the brackets `unclosed` are closed, innermost first. -/
inductive NestedWithin (counts : Bracket → Prop) : List Bracket → List TokenKind → Prop
  | outside {ks : List TokenKind} (hks : WellNested counts ks) : NestedWithin counts [] ks
  | closing {bracket : Bracket} {outer : List Bracket} {inner ks : List TokenKind}
      (hinner : WellNested counts inner) (hks : NestedWithin counts outer ks) :
      NestedWithin counts (bracket :: outer) (inner ++ .closing bracket :: ks)

section

variable {counts : Bracket → Prop} {kind : TokenKind} {ks ls : List TokenKind} {bracket : Bracket}
  {unclosed : List Bracket}

theorem NestedWithin.plain (hopen : ∀ b, counts b → kind ≠ .opening b)
    (hclose : ∀ b, counts b → kind ≠ .closing b) (h : NestedWithin counts unclosed ks) :
    NestedWithin counts unclosed (kind :: ks) := by
  cases h with
  | outside hks => exact .outside (.plain hopen hclose hks)
  | closing hinner hks => exact .closing (.plain hopen hclose hinner) hks

theorem NestedWithin.opening (hcounts : counts bracket)
    (h : NestedWithin counts (bracket :: unclosed) ks) :
    NestedWithin counts unclosed (.opening bracket :: ks) := by
  cases h with
  | closing hinner hrest =>
    -- The group is complete, and stands before what is nested already.
    cases hrest with
    | outside hks => exact .outside (.group hcounts hinner hks)
    | @closing next outer _ ks hnext hks =>
      have hgroup : WellNested counts (.opening bracket :: (_ ++ .closing bracket :: _)) :=
        .group hcounts hinner hnext
      have hwithin : NestedWithin counts (next :: outer) (_ ++ .closing next :: ks) :=
        .closing hgroup hks
      simpa using hwithin

/-! ## The brace that closes -/

/-- Only braces count. -/
def IsBrace (bracket : Bracket) : Prop := bracket = .brace

theorem NestedWithin.other (hopen : kind ≠ .opening .brace) (hclose : kind ≠ .closing .brace)
    (h : NestedWithin IsBrace unclosed ks) : NestedWithin IsBrace unclosed (kind :: ks) := by
  refine .plain ?_ ?_ h
  · rintro b rfl
    exact hopen
  · rintro b rfl
    exact hclose

namespace Reader

section

variable {t : Token} {depth : Nat} {tokens : List Token}

theorem closingBrace?_opening (ht : t.kind = .opening .brace) :
    closingBrace? depth (t :: tokens) = (closingBrace? (depth + 1) tokens).map (· + 1) := by
  obtain ⟨kind, span⟩ := t
  cases ht
  rfl

theorem closingBrace?_closing (ht : t.kind = .closing .brace) :
    closingBrace? (depth + 1) (t :: tokens) = (closingBrace? depth tokens).map (· + 1) := by
  obtain ⟨kind, span⟩ := t
  cases ht
  rfl

theorem closingBrace?_here (ht : t.kind = .closing .brace) :
    closingBrace? 0 (t :: tokens) = some 1 := by
  obtain ⟨kind, span⟩ := t
  cases ht
  rfl

theorem closingBrace?_other (hopen : t.kind ≠ .opening .brace) (hclose : t.kind ≠ .closing .brace) :
    closingBrace? depth (t :: tokens) = (closingBrace? depth tokens).map (· + 1) := by
  obtain ⟨kind, span⟩ := t
  cases kind with
  | opening bracket =>
    cases bracket with
    | brace => exact absurd rfl hopen
    | _ => rfl
  | closing bracket =>
    cases bracket with
    | brace => exact absurd rfl hclose
    | _ => rfl
  | _ => rfl

/-- **The brace that is found** closes what is open: before it, braces are nested. -/
theorem exists_of_closingBrace? {n : Nat} (h : closingBrace? depth tokens = some n) :
    ∃ inner, kinds (tokens.take n) = inner ++ [.closing .brace] ∧
      NestedWithin IsBrace (List.replicate depth .brace) inner := by
  induction tokens generalizing depth n with
  | nil => cases h
  | cons t tokens ih =>
    by_cases hopen : t.kind = .opening .brace
    · rw [closingBrace?_opening hopen] at h
      obtain ⟨m, hm, rfl⟩ := Option.map_eq_some_iff.1 h
      obtain ⟨inner, hinner, hnested⟩ := ih hm
      refine ⟨t.kind :: inner, congrArg (t.kind :: ·) hinner, ?_⟩
      rw [hopen]
      exact .opening rfl hnested
    · by_cases hclose : t.kind = .closing .brace
      · cases depth with
        | zero =>
          rw [closingBrace?_here hclose] at h
          cases h
          exact ⟨[], congrArg (fun kind => [kind]) hclose, .outside .nil⟩
        | succ depth =>
          rw [closingBrace?_closing hclose] at h
          obtain ⟨m, hm, rfl⟩ := Option.map_eq_some_iff.1 h
          obtain ⟨inner, hinner, hnested⟩ := ih hm
          refine ⟨t.kind :: inner, congrArg (t.kind :: ·) hinner, ?_⟩
          rw [hclose]
          exact .closing .nil hnested
      · rw [closingBrace?_other hopen hclose] at h
        obtain ⟨m, hm, rfl⟩ := Option.map_eq_some_iff.1 h
        obtain ⟨inner, hinner, hnested⟩ := ih hm
        exact ⟨t.kind :: inner, congrArg (t.kind :: ·) hinner, .other hopen hclose hnested⟩

end

/-- The search passes over nested braces. -/
theorem closingBrace?_append (h : WellNested IsBrace ks) (depth : Nat) (more : List TokenKind) :
    closingBrace? depth (bare (ks ++ more)) =
      (closingBrace? depth (bare more)).map (· + ks.length) := by
  induction h generalizing depth more with
  | nil => simp
  | @plain kind ks hopen hclose _ ih =>
    rw [List.cons_append, bare_cons, closingBrace?_other (hopen _ rfl) (hclose _ rfl), ih]
    simp [Function.comp_def, Nat.add_assoc]
  | @group bracket inner ks hbrace _ _ ihInner ih =>
    obtain rfl : bracket = .brace := hbrace
    rw [List.cons_append, List.append_assoc, List.cons_append, bare_cons,
      closingBrace?_opening rfl, ihInner, bare_cons, closingBrace?_closing rfl, ih]
    simp only [Option.map_map, Function.comp_def, List.length_cons, List.length_append]
    congr 1
    funext n
    omega

/-- **Nested braces are closed** by the brace behind them. -/
theorem closingBrace?_bare (h : WellNested IsBrace ks) (more : List TokenKind) :
    closingBrace? 0 (bare (ks ++ .closing .brace :: more)) = some (ks.length + 1) := by
  rw [closingBrace?_append h, bare_cons, closingBrace?_here rfl, Option.map_some, Nat.add_comm]

end Reader

end

/-! ## Nested tokens -/

/-- **Are the brackets of the tokens nested**, of whatever kind they are? -/
def AreNested (tokens : List Token) : Prop := WellNested (fun _ => True) (kinds tokens)

variable {t opener closer : Token} {tokens inner rest before : List Token} {bracket : Bracket}

theorem AreNested.nil : AreNested [] := WellNested.nil

theorem AreNested.plain (hopen : t.kind.isOpening = false) (hclose : t.kind.isClosing = false)
    (h : AreNested tokens) : AreNested (t :: tokens) := by
  refine WellNested.plain ?_ ?_ h
  · intro b _ hkind
    have hb : t.kind = .opening b := hkind
    rw [hb] at hopen
    cases hopen
  · intro b _ hkind
    have hb : t.kind = .closing b := hkind
    rw [hb] at hclose
    cases hclose

theorem AreNested.group (hopen : opener.kind = .opening bracket)
    (hclose : closer.kind = .closing bracket) (hinner : AreNested inner) (hrest : AreNested rest) :
    AreNested (opener :: (inner ++ closer :: rest)) := by
  have hgroup := @WellNested.group _ bracket _ _ trivial hinner hrest
  unfold AreNested kinds at *
  simpa [hopen, hclose] using hgroup

/-- Nested tokens are made of single ones and of groups, one behind the other. -/
theorem AreNested.induction {motive : (tokens : List Token) → AreNested tokens → Prop}
    (nil : motive [] .nil)
    (plain : ∀ t tokens hopen hclose h, motive tokens h →
      motive (t :: tokens) (.plain hopen hclose h))
    (group : ∀ opener inner closer rest bracket (hopen : opener.kind = .opening bracket)
      (hclose : closer.kind = .closing bracket) hinner hrest, motive inner hinner →
      motive rest hrest → motive (opener :: (inner ++ closer :: rest))
        (.group hopen hclose hinner hrest))
    {tokens : List Token} (h : AreNested tokens) : motive tokens h := by
  -- Nesting is a property of kinds, so the induction is on them, for all tokens that have them.
  have hall {ks : List TokenKind} (hks : WellNested (fun _ => True) ks) :
      ∀ tokens, kinds tokens = ks → ∀ h : AreNested tokens, motive tokens h := by
    induction hks with
    | nil =>
      intro tokens htokens _
      obtain rfl := List.map_eq_nil_iff.1 htokens
      exact nil
    | plain hopen hclose hnested ih =>
      intro tokens htokens _
      obtain ⟨t, rest, rfl, rfl, rfl⟩ := List.map_eq_cons_iff.1 htokens
      have hopen' : t.kind.isOpening = false := by
        cases hkind : t.kind with
        | opening b => exact absurd hkind (hopen b trivial)
        | _ => rfl
      have hclose' : t.kind.isClosing = false := by
        cases hkind : t.kind with
        | closing b => exact absurd hkind (hclose b trivial)
        | _ => rfl
      exact plain t rest hopen' hclose' hnested (ih rest rfl hnested)
    | group _ hinner hnested ihInner ih =>
      intro tokens htokens _
      obtain ⟨opener, tail, rfl, hopen, htail⟩ := List.map_eq_cons_iff.1 htokens
      obtain ⟨inner, behind, rfl, rfl, hbehind⟩ := List.map_eq_append_iff.1 htail
      obtain ⟨closer, rest, rfl, hclose, rfl⟩ := List.map_eq_cons_iff.1 hbehind
      exact group opener inner closer rest _ hopen hclose hinner hnested
        (ihInner inner rfl hinner) (ih rest rfl hnested)
  exact hall h tokens rfl h

/-! ## The check of brackets -/

theorem checkBalanced_plain (hopen : t.kind.isOpening = false) (hclose : t.kind.isClosing = false)
    (unclosed : List (Bracket × Span)) (tokens : List Token) :
    checkBalanced unclosed (t :: tokens) = checkBalanced unclosed tokens := by
  obtain ⟨kind, span⟩ := t
  cases kind with
  | opening bracket => cases hopen
  | closing bracket => cases hclose
  | _ => rfl

/-- The check passes over nested tokens. -/
theorem checkBalanced_append (h : AreNested tokens) (unclosed : List (Bracket × Span))
    (more : List Token) :
    checkBalanced unclosed (tokens ++ more) = checkBalanced unclosed more := by
  induction h using AreNested.induction generalizing unclosed more with
  | nil => rfl
  | plain t tokens hopen hclose _ ih =>
    rw [List.cons_append, checkBalanced_plain hopen hclose, ih]
  | group opener inner closer rest bracket hopen hclose _ _ ihInner ih =>
    obtain ⟨kind, start⟩ := opener
    obtain ⟨kind', stop⟩ := closer
    cases hopen
    cases hclose
    rw [List.cons_append, List.append_assoc, List.cons_append, checkBalanced, ihInner,
      checkBalanced, if_pos rfl, ih]

/-- What passes the check is nested, and closes what is open before it. -/
theorem nestedWithin_of_checkBalanced {unclosed : List (Bracket × Span)}
    (h : checkBalanced unclosed tokens = .ok ()) :
    NestedWithin (fun _ => True) (unclosed.map (·.1)) (kinds tokens) := by
  fun_induction checkBalanced unclosed tokens with
  | case1 => exact .outside .nil
  | case2 => cases h
  | case3 unclosed bracket span tokens ih => exact .opening trivial (ih h)
  | case4 tokens bracket span outer opener ih =>
    exact .closing .nil (ih h)
  | case5 => cases h
  | case6 => cases h
  | case7 unclosed t tokens hopen hclose ih =>
    refine .plain ?_ ?_ (ih h)
    · rintro b - hkind
      exact hopen b t.span (by rw [← hkind])
    · rintro b - hkind
      exact hclose b t.span (by rw [← hkind])

/-- **The check of brackets** passes just if they are nested. -/
theorem balanced_iff : balanced tokens = .ok () ↔ AreNested tokens := by
  constructor
  · intro h
    have hwithin := nestedWithin_of_checkBalanced h
    cases hwithin with
    | outside hnested => exact hnested
  · intro h
    have hcheck := checkBalanced_append h [] []
    rw [List.append_nil] at hcheck
    exact hcheck

/-- What stands behind nested tokens is nested, if all of them together are. -/
theorem AreNested.of_append (hbefore : AreNested before) (h : AreNested (before ++ rest)) :
    AreNested rest := by
  rw [← balanced_iff] at h ⊢
  unfold balanced at h ⊢
  rwa [checkBalanced_append hbefore] at h

theorem AreNested.of_cons (hopen : t.kind.isOpening = false) (hclose : t.kind.isClosing = false)
    (h : AreNested (t :: rest)) : AreNested rest := by
  rw [← balanced_iff] at h ⊢
  unfold balanced at h ⊢
  rwa [checkBalanced_plain hopen hclose] at h

/-! ## Depth -/

/-- The depth behind some tokens, from that before them. -/
def depthBehind (depth : Nat) (tokens : List Token) : Nat :=
  tokens.foldl (fun depth t => depthAfter depth t.kind) depth

@[simp] theorem depthBehind_nil (depth : Nat) : depthBehind depth [] = depth := rfl

@[simp] theorem depthBehind_cons (depth : Nat) (t : Token) (tokens : List Token) :
    depthBehind depth (t :: tokens) = depthBehind (depthAfter depth t.kind) tokens := rfl

@[simp] theorem depthBehind_append (depth : Nat) (tokens more : List Token) :
    depthBehind depth (tokens ++ more) = depthBehind (depthBehind depth tokens) more :=
  List.foldl_append

theorem depthAfter_opening (h : t.kind = .opening bracket) (depth : Nat) :
    depthAfter depth t.kind = depth + 1 := by
  rw [h]
  rfl

theorem depthAfter_closing (h : t.kind = .closing bracket) (depth : Nat) :
    depthAfter (depth + 1) t.kind = depth := by
  rw [h]
  rfl

theorem depthAfter_plain (hopen : t.kind.isOpening = false) (hclose : t.kind.isClosing = false)
    (depth : Nat) : depthAfter depth t.kind = depth := by
  unfold depthAfter
  rw [hopen, hclose]
  rfl

theorem depthBehind_of_areNested (h : AreNested tokens) (depth : Nat) :
    depthBehind depth tokens = depth := by
  induction h using AreNested.induction generalizing depth with
  | nil => rfl
  | plain t tokens hopen hclose _ ih => rw [depthBehind_cons, depthAfter_plain hopen hclose, ih]
  | group opener inner closer rest bracket hopen hclose _ _ ihInner ih =>
    rw [depthBehind_cons, depthAfter_opening hopen, depthBehind_append, ihInner, depthBehind_cons,
      depthAfter_closing hclose, ih]

/-- What begins a group and more ends before the group, in it, or behind it. -/
theorem cases_of_prefix_group (h : before <+: opener :: (inner ++ closer :: rest)) :
    before = [] ∨ (∃ part, part <+: inner ∧ before = opener :: part) ∨
      ∃ part, part <+: rest ∧ before = opener :: (inner ++ closer :: part) := by
  rcases List.prefix_cons_iff.1 h with rfl | ⟨tail, rfl, behind, htail⟩
  · exact .inl rfl
  · rcases List.append_eq_append_iff.1 htail with ⟨missed, rfl, -⟩ | ⟨part, rfl, hpart⟩
    · exact .inr (.inl ⟨tail, List.prefix_append _ _, rfl⟩)
    · cases part with
      | nil =>
        refine .inr (.inl ⟨inner, List.prefix_refl _, ?_⟩)
        rw [List.append_nil]
      | cons first part =>
        obtain ⟨rfl, rfl⟩ := List.cons.inj hpart
        exact .inr (.inr ⟨part, List.prefix_append _ _, rfl⟩)

/-- As far as tokens are nested the depth does not stop at zero: brackets open around
    them stay open. -/
theorem depthBehind_add (h : AreNested tokens) (hbefore : before <+: tokens) (depth extra : Nat) :
    depthBehind (depth + extra) before = depthBehind depth before + extra := by
  induction h using AreNested.induction generalizing before depth with
  | nil =>
    obtain rfl := List.prefix_nil.1 hbefore
    rfl
  | plain t tokens hopen hclose _ ih =>
    rcases List.prefix_cons_iff.1 hbefore with rfl | ⟨part, rfl, hpart⟩
    · rfl
    · rw [depthBehind_cons, depthBehind_cons, depthAfter_plain hopen hclose,
        depthAfter_plain hopen hclose, ih hpart]
  | group opener inner closer rest bracket hopen hclose hinner _ ihInner ih =>
    rcases cases_of_prefix_group hbefore with rfl | ⟨part, hpart, rfl⟩ | ⟨part, hpart, rfl⟩
    · rfl
    · rw [depthBehind_cons, depthBehind_cons, depthAfter_opening hopen, depthAfter_opening hopen,
        Nat.add_right_comm, ihInner hpart]
    · simp only [depthBehind_cons, depthBehind_append, depthAfter_opening hopen,
        depthBehind_of_areNested hinner, depthAfter_closing hclose]
      exact ih hpart depth

/-- **In nested tokens the depth is zero** outside all brackets, and only there. -/
theorem depthBehind_eq_zero_iff (h : AreNested tokens) (hbefore : before <+: tokens) :
    depthBehind 0 before = 0 ↔ AreNested before := by
  refine ⟨?_, fun hnested => depthBehind_of_areNested hnested 0⟩
  induction h using AreNested.induction generalizing before with
  | nil =>
    obtain rfl := List.prefix_nil.1 hbefore
    exact fun _ => .nil
  | plain t tokens hopen hclose _ ih =>
    rcases List.prefix_cons_iff.1 hbefore with rfl | ⟨part, rfl, hpart⟩
    · exact fun _ => .nil
    · rw [depthBehind_cons, depthAfter_plain hopen hclose]
      exact fun hzero => .plain hopen hclose (ih hpart hzero)
  | group opener inner closer rest bracket hopen hclose hinner _ _ ih =>
    rcases cases_of_prefix_group hbefore with rfl | ⟨part, hpart, rfl⟩ | ⟨part, hpart, rfl⟩
    · exact fun _ => .nil
    · -- Inside the group, its own bracket is open.
      rw [depthBehind_cons, depthAfter_opening hopen, depthBehind_add hinner hpart]
      exact fun hzero => absurd hzero (Nat.succ_ne_zero _)
    · simp only [depthBehind_cons, depthBehind_append, depthAfter_opening hopen,
        depthBehind_of_areNested hinner, depthAfter_closing hclose]
      exact fun hzero => .group hopen hclose hinner (ih hpart hzero)

/-! ## Separators -/

section

variable {separator : TokenKind} {depth : Nat} {found : Token} {after : List Token}
  {pieces : List (List Token)}

/-- A list is split where the depth is zero for the first time at a separator. -/
theorem splitAtTop?_eq_some_iff :
    splitAtTop? separator depth tokens = some (before, found, after) ↔
      tokens = before ++ found :: after ∧ found.kind = separator ∧
        depthBehind depth before = 0 ∧ ∀ earlier t later, before = earlier ++ t :: later →
          t.kind = separator → depthBehind depth earlier ≠ 0 := by
  induction tokens generalizing depth before with
  | nil => simp [splitAtTop?]
  | cons t tokens ih =>
    unfold splitAtTop?
    by_cases hhere : depth = 0 ∧ t.kind = separator
    · -- The first token is where the list is split, so nothing can stand before it.
      rw [if_pos hhere]
      constructor
      · rintro ⟨⟩
        exact ⟨rfl, hhere.2, hhere.1, by simp⟩
      · rintro ⟨heq, -, -, hfirst⟩
        cases before with
        | nil =>
          cases heq
          rfl
        | cons first before =>
          obtain ⟨rfl, -⟩ := List.cons.inj heq
          exact absurd hhere.1 (hfirst [] t before rfl hhere.2)
    · -- The first token is one of those before, and the rest is split behind it.
      rw [if_neg hhere]
      constructor
      · intro h
        obtain ⟨⟨before', found', after'⟩, hrest, heq⟩ := Option.map_eq_some_iff.1 h
        cases heq
        obtain ⟨rfl, hkind, hzero, hfirst⟩ := ih.1 hrest
        refine ⟨rfl, hkind, hzero, ?_⟩
        intro earlier s later heq hs
        cases earlier with
        | nil =>
          obtain ⟨rfl, -⟩ := List.cons.inj heq
          exact fun hdepth => hhere ⟨hdepth, hs⟩
        | cons first earlier =>
          obtain ⟨rfl, hrest⟩ := List.cons.inj heq
          exact hfirst earlier s later hrest hs
      · rintro ⟨heq, hkind, hzero, hfirst⟩
        cases before with
        | nil =>
          obtain ⟨rfl, -⟩ := List.cons.inj heq
          exact absurd ⟨hzero, hkind⟩ hhere
        | cons first before =>
          obtain ⟨rfl, rfl⟩ := List.cons.inj heq
          have hsplit := ih.2 ⟨rfl, hkind, hzero, fun earlier s later heq =>
            hfirst (t :: earlier) s later (congrArg (t :: ·) heq)⟩
          rw [hsplit]
          rfl

/-- **The first token of the kind `separator` outside all brackets** is `found`. -/
structure SplitsAt (separator : TokenKind) (tokens before : List Token) (found : Token)
    (after : List Token) : Prop where
  eq : tokens = before ++ found :: after
  kind : found.kind = separator
  outside : AreNested before
  first : ∀ earlier t later, before = earlier ++ t :: later → t.kind = separator →
    ¬ AreNested earlier

/-- **Where nested tokens are split** is outside all brackets. -/
theorem splitAtTop?_iff (h : AreNested tokens) :
    splitAtTop? separator 0 tokens = some (before, found, after) ↔
      SplitsAt separator tokens before found after := by
  rw [splitAtTop?_eq_some_iff]
  constructor
  · rintro ⟨rfl, hkind, hzero, hfirst⟩
    have hbefore : before <+: before ++ found :: after := List.prefix_append _ _
    refine ⟨rfl, hkind, (depthBehind_eq_zero_iff h hbefore).1 hzero, ?_⟩
    rintro earlier t later rfl ht hearlier
    exact hfirst earlier t later rfl ht (depthBehind_of_areNested hearlier 0)
  · rintro ⟨rfl, hkind, houtside, hfirst⟩
    refine ⟨rfl, hkind, depthBehind_of_areNested houtside 0, ?_⟩
    rintro earlier t later rfl ht hzero
    have hearlier : earlier <+: (earlier ++ t :: later) ++ found :: after :=
      (List.prefix_append _ _).trans (List.prefix_append _ _)
    exact hfirst earlier t later rfl ht ((depthBehind_eq_zero_iff h hearlier).1 hzero)

/-- **The pieces** between the separators outside all brackets. -/
inductive Pieces (separator : TokenKind) : List Token → List (List Token) → Prop
  | last {tokens : List Token}
      (hnone : ∀ before found after, ¬ SplitsAt separator tokens before found after) :
      Pieces separator tokens [tokens]
  | more {tokens piece rest : List Token} {found : Token} {pieces : List (List Token)}
      (hsplit : SplitsAt separator tokens piece found rest)
      (hpieces : Pieces separator rest pieces) : Pieces separator tokens (piece :: pieces)

theorem SplitsAt.areNested_after (h : SplitsAt separator tokens before found after)
    (hopen : separator.isOpening = false) (hclose : separator.isClosing = false)
    (hnested : AreNested tokens) : AreNested after := by
  obtain ⟨rfl, rfl, houtside, -⟩ := h
  exact (houtside.of_append hnested).of_cons hopen hclose

theorem Pieces.areNested (h : Pieces separator tokens pieces) (hopen : separator.isOpening = false)
    (hclose : separator.isClosing = false) (hnested : AreNested tokens) :
    ∀ piece ∈ pieces, AreNested piece := by
  induction h with
  | last _ => exact List.forall_mem_singleton.2 hnested
  | more hsplit _ ih =>
    exact List.forall_mem_cons.2
      ⟨hsplit.outside, ih (hsplit.areNested_after hopen hclose hnested)⟩

theorem partsAtTop_eq_of_none (h : splitAtTop? separator depth tokens = none) :
    partsAtTop separator depth tokens = [tokens] := by
  induction tokens generalizing depth with
  | nil => rfl
  | cons t tokens ih =>
    unfold splitAtTop? at h
    split at h
    · cases h
    · next hhere =>
      rw [partsAtTop, if_neg hhere, ih (Option.map_eq_none_iff.1 h)]

theorem partsAtTop_eq_of_some
    (h : splitAtTop? separator depth tokens = some (before, found, after)) :
    partsAtTop separator depth tokens = before :: partsAtTop separator 0 after := by
  induction tokens generalizing depth before with
  | nil => cases h
  | cons t tokens ih =>
    unfold splitAtTop? at h
    split at h
    · next hhere =>
      cases h
      rw [partsAtTop, if_pos hhere]
    · next hhere =>
      obtain ⟨⟨before', found', after'⟩, hrest, heq⟩ := Option.map_eq_some_iff.1 h
      cases heq
      rw [partsAtTop, if_neg hhere, ih hrest]

theorem length_lt_of_splitAtTop?
    (h : splitAtTop? separator depth tokens = some (before, found, after)) :
    after.length < tokens.length := by
  rw [splitAtTop?_eq h, List.length_append, List.length_cons]
  omega

/-- **The parts of nested tokens** are the pieces between separators. -/
theorem pieces_iff (hopen : separator.isOpening = false) (hclose : separator.isClosing = false)
    (h : AreNested tokens) :
    Pieces separator tokens pieces ↔ partsAtTop separator 0 tokens = pieces := by
  constructor
  · intro hpieces
    induction hpieces with
    | @last tokens hnone =>
      apply partsAtTop_eq_of_none
      cases hsplit : splitAtTop? separator 0 tokens with
      | none => rfl
      | some split =>
        obtain ⟨before, found, after⟩ := split
        exact absurd ((splitAtTop?_iff h).1 hsplit) (hnone before found after)
    | more hsplit _ ih =>
      rw [partsAtTop_eq_of_some ((splitAtTop?_iff h).2 hsplit),
        ih (hsplit.areNested_after hopen hclose h)]
  · rintro rfl
    -- The tokens behind a separator are fewer.
    generalize hlength : tokens.length = n
    induction n using Nat.strong_induction_on generalizing tokens with
    | _ n ih =>
      cases hsplit : splitAtTop? separator 0 tokens with
      | none =>
        rw [partsAtTop_eq_of_none hsplit]
        refine .last fun before found after hsplits => ?_
        rw [(splitAtTop?_iff h).2 hsplits] at hsplit
        cases hsplit
      | some split =>
        obtain ⟨before, found, after⟩ := split
        have hsplits := (splitAtTop?_iff h).1 hsplit
        have hfewer := length_lt_of_splitAtTop? hsplit
        rw [partsAtTop_eq_of_some hsplit]
        refine .more hsplits (ih after.length ?_ (hsplits.areNested_after hopen hclose h) rfl)
        omega

end

/-! ## Atoms -/

/-- **Is this a single token that is no bracket, or a complete group?** -/
inductive IsAtom : List Token → Prop
  | single {t : Token} (hopen : t.kind.isOpening = false) (hclose : t.kind.isClosing = false) :
      IsAtom [t]
  | group {opener closer : Token} {inner : List Token} {bracket : Bracket}
      (hopen : opener.kind = .opening bracket) (hclose : closer.kind = .closing bracket)
      (hinner : AreNested inner) : IsAtom (opener :: (inner ++ [closer]))

/-- Nested tokens inside a bracket join the atom of those behind them. -/
theorem exists_atomsFrom_append (h : AreNested tokens) {depth : Nat} {more : List Token} {a : Atom}
    {as : List Atom} (hmore : atomsFrom (depth + 1) more = a :: as) :
    ∃ a', atomsFrom (depth + 1) (tokens ++ more) = a' :: as ∧ a'.tokens = tokens ++ a.tokens := by
  induction h using AreNested.induction generalizing depth more a as with
  | nil => exact ⟨a, hmore, rfl⟩
  | plain t tokens hopen hclose _ ih =>
    obtain ⟨a', hatoms, htokens⟩ := ih hmore
    refine ⟨⟨t, a'.tokens⟩, ?_, congrArg (t :: ·) htokens⟩
    rw [List.cons_append, atomsFrom]
    rw [depthAfter_plain hopen hclose, if_neg (Nat.succ_ne_zero _), hatoms]
  | group opener inner closer rest bracket hopen hclose _ _ ihInner ih =>
    obtain ⟨behind, hbehind, htokens⟩ := ih hmore
    -- The bracket that closes the group leaves the outer one open.
    have hcloser : atomsFrom (depth + 2) (closer :: (rest ++ more)) =
        ⟨closer, behind.tokens⟩ :: as := by
      rw [atomsFrom]
      rw [depthAfter_closing hclose, if_neg (Nat.succ_ne_zero _), hbehind]
    obtain ⟨whole, hwhole, hinner⟩ := ihInner hcloser
    refine ⟨⟨opener, whole.tokens⟩, ?_, ?_⟩
    · rw [List.cons_append, List.append_assoc, List.cons_append, atomsFrom]
      rw [depthAfter_opening hopen, if_neg (Nat.succ_ne_zero _), hwhole]
    · show opener :: whole.tokens = _
      rw [hinner]
      show _ = opener :: ((inner ++ closer :: rest) ++ a.tokens)
      rw [List.append_assoc, List.cons_append, ← htokens]
      rfl

/-- **Nested tokens fall apart** into single ones and complete groups. -/
theorem isAtom_of_mem_atoms (h : AreNested tokens) : ∀ a ∈ atoms tokens, IsAtom a.tokens := by
  induction h using AreNested.induction with
  | nil => exact fun a ha => nomatch ha
  | plain t tokens hopen hclose _ ih =>
    have hatoms : atoms (t :: tokens) = ⟨t, []⟩ :: atoms tokens := by
      unfold atoms
      rw [atomsFrom]
      rw [depthAfter_plain hopen hclose, if_pos rfl]
    rw [hatoms]
    exact List.forall_mem_cons.2 ⟨.single hopen hclose, ih⟩
  | group opener inner closer rest bracket hopen hclose hinner _ _ ih =>
    have hcloser : atomsFrom 1 (closer :: rest) = ⟨closer, []⟩ :: atomsFrom 0 rest := by
      rw [atomsFrom]
      rw [depthAfter_closing hclose, if_pos rfl]
    obtain ⟨whole, hwhole, htokens⟩ := exists_atomsFrom_append hinner hcloser
    have hatoms : atoms (opener :: (inner ++ closer :: rest)) =
        ⟨opener, whole.tokens⟩ :: atoms rest := by
      unfold atoms
      rw [atomsFrom]
      rw [depthAfter_opening hopen, if_neg (Nat.succ_ne_zero _), hwhole]
    rw [hatoms]
    refine List.forall_mem_cons.2 ⟨?_, ih⟩
    show IsAtom (opener :: whole.tokens)
    rw [htokens]
    exact .group hopen hclose hinner

end ElmIntake
