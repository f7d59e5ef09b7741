import ElmIntake.Proofs.Syntax.Nesting
import Mathlib.Data.List.Induction

/-! # Brackets and blame

    The check of brackets keeps a stack and stops at the first fault. Here is what it
    decides, said without a stack.

    The language that it accepts is that of a grammar (`Dyck`): there is nothing, or a
    group and what follows it. In a list outside the language some bracket is to blame. A
    closing bracket is, if it does not close the last bracket that is still open before it
    (`ClosesLast`), and the first one of these is named; where there is none, the last
    bracket that is never closed is (`IsLastUnclosed`).

    The stack is tied to the tokens by `LeavesOpen`: what was read is nested but for the
    brackets on the stack. One more token keeps that, or it is the first closing bracket
    to blame (`exists_leavesOpen_or_stopsAt`, by induction on the last token).

    In the same way the depth that separators are looked for by is the number of groups
    around a place (`StandsWithin`).

    Main statement: `checksBrackets`. -/

namespace ElmIntake

/-! ## The language of brackets -/

/-- **The language of three kinds of brackets.** -/
inductive Dyck : List TokenKind → Prop
  | nothing : Dyck []
  | group {bracket : Bracket} {inner rest : List TokenKind} (hinner : Dyck inner)
      (hrest : Dyck rest) : Dyck (.opening bracket :: (inner ++ .closing bracket :: rest))

/-- The brackets among some tokens. -/
def brackets (tokens : List Token) : List TokenKind :=
  (kinds tokens).filter fun kind => kind.isOpening || kind.isClosing

variable {t opener closer c : Token} {tokens inner rest before behind after : List Token}
  {bracket : Bracket} {span : Span} {unclosed outer : List (Bracket × Span)}

@[simp] theorem brackets_nil : brackets [] = [] := rfl

@[simp] theorem brackets_append (tokens more : List Token) :
    brackets (tokens ++ more) = brackets tokens ++ brackets more := by
  simp [brackets, kinds]

theorem brackets_plain (hopen : t.kind.isOpening = false) (hclose : t.kind.isClosing = false)
    (tokens : List Token) : brackets (t :: tokens) = brackets tokens := by
  simp [brackets, hopen, hclose]

theorem brackets_opening (h : t.kind = .opening bracket) (tokens : List Token) :
    brackets (t :: tokens) = .opening bracket :: brackets tokens := by
  simp [brackets, h, TokenKind.isOpening]

theorem brackets_closing (h : t.kind = .closing bracket) (tokens : List Token) :
    brackets (t :: tokens) = .closing bracket :: brackets tokens := by
  simp [brackets, h, TokenKind.isClosing]

/-- Tokens that are no brackets may stand before nested ones. -/
theorem AreNested.append_plain (hplain : brackets before = []) (h : AreNested tokens) :
    AreNested (before ++ tokens) := by
  induction before with
  | nil => exact h
  | cons t before ih =>
    cases hopen : t.kind.isOpening with
    | true => simp [brackets, hopen] at hplain
    | false =>
      cases hclose : t.kind.isClosing with
      | true => simp [brackets, hclose] at hplain
      | false =>
        rw [brackets_plain hopen hclose] at hplain
        exact .plain hopen hclose (ih hplain)

theorem AreNested.append (hbefore : AreNested before) (h : AreNested tokens) :
    AreNested (before ++ tokens) := by
  rw [← balanced_iff] at h ⊢
  unfold balanced at h ⊢
  rwa [checkBalanced_append hbefore]

/-- The first bracket of some tokens has no bracket before it. -/
theorem exists_of_brackets_cons {kind : TokenKind} {ks : List TokenKind}
    (h : brackets tokens = kind :: ks) :
    ∃ before t rest, tokens = before ++ t :: rest ∧ brackets before = [] ∧ t.kind = kind ∧
      brackets rest = ks := by
  unfold brackets at h
  obtain ⟨front, back, hkinds, hfront, -, hback⟩ := List.filter_eq_cons_iff.1 h
  obtain ⟨before, tail, rfl, rfl, htail⟩ := List.map_eq_append_iff.1 hkinds
  obtain ⟨t, rest, rfl, rfl, rfl⟩ := List.map_eq_cons_iff.1 htail
  exact ⟨before, t, rest, rfl, List.filter_eq_nil_iff.2 hfront, rfl, hback⟩

/-- **Tokens are nested** just if their brackets are in the language. -/
theorem areNested_iff_dyck : AreNested tokens ↔ Dyck (brackets tokens) := by
  constructor
  · intro h
    induction h using AreNested.induction with
    | nil => exact .nothing
    | plain t tokens hopen hclose _ ih =>
      rw [brackets_plain hopen hclose]
      exact ih
    | group opener inner closer rest bracket hopen hclose _ _ ihInner ih =>
      rw [brackets_opening hopen, brackets_append, brackets_closing hclose]
      exact .group ihInner ih
  · intro h
    generalize hks : brackets tokens = ks at h
    induction h generalizing tokens with
    | nothing =>
      rw [← List.append_nil tokens]
      exact .append_plain hks .nil
    | @group bracket ks ls _ _ ihInner ih =>
      obtain ⟨before, opener, tail, rfl, hbefore, hopen, htail⟩ := exists_of_brackets_cons hks
      -- What follows the opening bracket is cut where the brackets of the group end.
      unfold brackets at htail
      obtain ⟨front, back, hkinds, hfront, hback⟩ := List.filter_eq_append_iff.1 htail
      obtain ⟨inner, tail, rfl, rfl, rfl⟩ := List.map_eq_append_iff.1 hkinds
      obtain ⟨blank, closer, rest, rfl, hblank, hclose, hrest⟩ := exists_of_brackets_cons hback
      have hinner : AreNested (inner ++ blank) := by
        apply ihInner
        rw [brackets_append, hblank, List.append_nil]
        exact hfront
      have hgroup := AreNested.group hopen hclose hinner (ih hrest)
      rw [List.append_assoc] at hgroup
      exact hgroup.append_plain hbefore

/-! ## Blame -/

/-- Does `closer` close `opener`, with `inner` between them? -/
def ClosesGroup (opener : Token) (inner : List Token) (closer : Token) : Prop :=
  ∃ bracket, opener.kind = .opening bracket ∧ closer.kind = .closing bracket ∧
    Dyck (brackets inner)

/-- Is this an opening bracket that nothing behind it closes? -/
def IsUnclosed (opener : Token) (behind : List Token) : Prop :=
  opener.kind.isOpening = true ∧ ∀ inner closer rest, behind = inner ++ closer :: rest →
    ¬ ClosesGroup opener inner closer

/-- **Is `opener` the last bracket of the tokens that is open and never closed?** Behind it
    stands `behind`. -/
structure IsLastUnclosed (tokens : List Token) (opener : Token) (behind : List Token) : Prop where
  eq : ∃ before, tokens = before ++ opener :: behind
  unclosed : IsUnclosed opener behind
  last : ∀ inner next rest, behind = inner ++ next :: rest → ¬ IsUnclosed next rest

/-- Does `closer` match the innermost bracket that is unclosed in the tokens before it? -/
def ClosesLast (before : List Token) (closer : Token) : Prop :=
  ∃ opener behind bracket, IsLastUnclosed before opener behind ∧
    opener.kind = .opening bracket ∧ closer.kind = .closing bracket

/-- Do all closing brackets match? -/
def AllMatch (tokens : List Token) : Prop :=
  ∀ before closer after, tokens = before ++ closer :: after → closer.kind.isClosing = true →
    ClosesLast before closer

/-- **Is `closer` the first closing bracket that does not match?** -/
structure IsFirstMismatch (tokens before : List Token) (closer : Token) : Prop where
  eq : ∃ after, tokens = before ++ closer :: after
  closing : closer.kind.isClosing = true
  mismatch : ¬ ClosesLast before closer
  first : AllMatch before

/-! ### Unclosed brackets -/

/-- Every bracket that is opened in nested tokens is closed in them. -/
theorem AreNested.not_isUnclosed (h : AreNested tokens) (heq : tokens = before ++ opener :: behind)
    (more : List Token) : ¬ IsUnclosed opener (behind ++ more) := by
  intro hunclosed
  induction h using AreNested.induction generalizing before behind more with
  | nil => simp at heq
  | plain t tokens hopen hclose _ ih =>
    cases before with
    | nil =>
      obtain ⟨rfl, -⟩ := List.cons.inj heq
      rw [hunclosed.1] at hopen
      cases hopen
    | cons first before => exact ih (List.cons.inj heq).2 more hunclosed
  | group first inner closer rest bracket hopen hclose hinner _ ihInner ih =>
    have hne : opener ≠ closer := by
      rintro rfl
      have hopening := hunclosed.1
      rw [hclose] at hopening
      cases hopening
    cases before with
    | nil =>
      -- The group itself.
      obtain ⟨rfl, rfl⟩ := List.cons.inj heq
      refine hunclosed.2 inner closer (rest ++ more) (by simp) ⟨bracket, hopen, hclose, ?_⟩
      exact areNested_iff_dyck.1 hinner
    | cons _ before =>
      have htail : inner ++ closer :: rest = before ++ opener :: behind := (List.cons.inj heq).2
      rcases List.append_eq_append_iff.1 htail with ⟨part, -, hpart⟩ | ⟨part, hfront, hpart⟩
      · cases part with
        | nil => exact hne (List.cons.inj hpart).1.symm
        | cons _ part => exact ih (List.cons.inj hpart).2 more hunclosed
      · cases part with
        | nil => exact hne (List.cons.inj hpart).1
        | cons _ part =>
          rw [List.cons_append] at hpart
          obtain ⟨rfl, rfl⟩ := List.cons.inj hpart
          rw [List.append_assoc] at hunclosed
          exact ihInner hfront _ hunclosed

/-- Nothing in nested tokens closes a bracket before them. -/
theorem AreNested.isUnclosed (h : AreNested behind) (hopen : opener.kind = .opening bracket) :
    IsUnclosed opener behind := by
  refine ⟨by rw [hopen]; rfl, ?_⟩
  rintro inner closer rest rfl ⟨_, -, hclose, hinner⟩
  have hrest : AreNested (closer :: rest) := (areNested_iff_dyck.2 hinner).of_append h
  -- No nested tokens begin with a closing bracket.
  have hdyck := areNested_iff_dyck.1 hrest
  rw [brackets_closing hclose] at hdyck
  cases hdyck

/-- There is one last unclosed bracket at most. -/
theorem IsLastUnclosed.unique {opener' : Token} {behind' : List Token}
    (h : IsLastUnclosed tokens opener behind) (h' : IsLastUnclosed tokens opener' behind') :
    opener = opener' := by
  obtain ⟨before, rfl⟩ := h.eq
  obtain ⟨before', heq⟩ := h'.eq
  rcases List.append_eq_append_iff.1 heq with ⟨part, -, hpart⟩ | ⟨part, -, hpart⟩
  · cases part with
    | nil => exact (List.cons.inj hpart).1
    | cons _ part => exact absurd h'.unclosed (h.last part _ _ (List.cons.inj hpart).2)
  · cases part with
    | nil => exact (List.cons.inj hpart).1.symm
    | cons _ part => exact absurd h.unclosed (h'.last part _ _ (List.cons.inj hpart).2)

/-! ### The stack -/

/-- **Are the tokens nested but for the brackets `unclosed`**, innermost first? -/
inductive LeavesOpen : List (Bracket × Span) → List Token → Prop
  | nested {tokens : List Token} (h : AreNested tokens) : LeavesOpen [] tokens
  | opening {bracket : Bracket} {span : Span} {outer : List (Bracket × Span)}
      {before inner : List Token} (houter : LeavesOpen outer before) (hinner : AreNested inner) :
      LeavesOpen ((bracket, span) :: outer) (before ++ ⟨.opening bracket, span⟩ :: inner)

namespace LeavesOpen

/-- The stack of the check is what is left open. -/
theorem checkBalanced_append (h : LeavesOpen unclosed tokens) (more : List Token) :
    checkBalanced [] (tokens ++ more) = checkBalanced unclosed more := by
  induction h generalizing more with
  | nested h => exact ElmIntake.checkBalanced_append h [] more
  | opening _ hinner ih =>
    rw [List.append_assoc, ih, List.cons_append, checkBalanced,
      ElmIntake.checkBalanced_append hinner]

/-- Nested tokens behind it change nothing. -/
theorem append (h : LeavesOpen unclosed tokens) (hmore : AreNested inner) :
    LeavesOpen unclosed (tokens ++ inner) := by
  cases h with
  | nested h => exact .nested (h.append hmore)
  | opening houter h =>
    rw [List.append_assoc, List.cons_append]
    exact .opening houter (h.append hmore)

/-- The bracket on top is closed. -/
theorem close (h : LeavesOpen ((bracket, span) :: outer) tokens)
    (hclose : closer.kind = .closing bracket) : LeavesOpen outer (tokens ++ [closer]) := by
  cases h with
  | opening houter hinner =>
    rw [List.append_assoc, List.cons_append]
    exact houter.append (.group rfl hclose hinner .nil)

/-- The bracket on top is the last unclosed one. -/
theorem isLastUnclosed (h : LeavesOpen ((bracket, span) :: outer) tokens) :
    ∃ behind, IsLastUnclosed tokens ⟨.opening bracket, span⟩ behind := by
  cases h with
  | @opening _ _ _ before inner _ hinner =>
    refine ⟨inner, ⟨before, rfl⟩, hinner.isUnclosed rfl, ?_⟩
    intro front next rest heq hunclosed
    refine hinner.not_isUnclosed heq [] ?_
    rwa [List.append_nil]

/-- Where nothing is left open, no bracket is unclosed. -/
theorem not_isLastUnclosed (h : LeavesOpen [] tokens) (opener : Token) (behind : List Token) :
    ¬ IsLastUnclosed tokens opener behind := by
  cases h with
  | nested h =>
    rintro ⟨⟨before, heq⟩, hunclosed, -⟩
    refine h.not_isUnclosed heq [] ?_
    rwa [List.append_nil]

/-- A closing bracket matches if the one on top is of its kind. -/
theorem closesLast_iff (h : LeavesOpen unclosed tokens) (hclose : closer.kind = .closing bracket) :
    ClosesLast tokens closer ↔ unclosed.head?.map (·.1) = some bracket := by
  cases unclosed with
  | nil =>
    constructor
    · rintro ⟨opener, behind, -, hlast, -⟩
      exact absurd hlast (h.not_isLastUnclosed opener behind)
    · intro hnone
      cases hnone
  | cons top outer =>
    obtain ⟨kind, span⟩ := top
    obtain ⟨behind, hlast⟩ := h.isLastUnclosed
    constructor
    · rintro ⟨opener, behind', _, hlast', hopen, hclose'⟩
      have hsame := hlast.unique hlast'
      rw [← hsame] at hopen
      cases hopen
      rw [hclose] at hclose'
      cases hclose'
      rfl
    · intro hsome
      cases hsome
      exact ⟨_, behind, _, hlast, rfl, hclose⟩

end LeavesOpen

/-! ### One token more -/

theorem allMatch_nil : AllMatch [] := by
  intro before closer after heq
  simp at heq

theorem allMatch_append (h : AllMatch tokens)
    (hlast : t.kind.isClosing = true → ClosesLast tokens t) : AllMatch (tokens ++ [t]) := by
  intro before closer after heq hclosing
  rcases List.eq_nil_or_concat after with rfl | ⟨front, last, rfl⟩
  · obtain ⟨rfl, hsame⟩ := List.append_inj' heq rfl
    obtain rfl := List.singleton_inj.1 hsame
    exact hlast hclosing
  · rw [List.concat_eq_append, ← List.cons_append, ← List.append_assoc] at heq
    exact h before closer front (List.append_inj' heq rfl).1 hclosing

/-- Does the check stop at a first closing bracket that does not match, whatever follows
    the tokens? -/
def StopsAt (tokens : List Token) (closer : Token) : Prop :=
  (∃ before, IsFirstMismatch tokens before closer) ∧ ∀ more,
    checkBalanced [] (tokens ++ more) = .error ⟨.unmatched closer.text, closer.span⟩

theorem StopsAt.append (h : StopsAt tokens closer) (more : List Token) :
    StopsAt (tokens ++ more) closer := by
  obtain ⟨⟨before, ⟨after, heq⟩, hclosing, hmismatch, hfirst⟩, hcheck⟩ := h
  refine ⟨⟨before, ⟨after ++ more, ?_⟩, hclosing, hmismatch, hfirst⟩, ?_⟩
  · rw [heq, List.append_assoc, List.cons_append]
  · intro further
    rw [List.append_assoc]
    exact hcheck _

/-- The check stops at a closing bracket that the one on top does not match. -/
theorem checkBalanced_mismatch (hclose : closer.kind = .closing bracket)
    (h : unclosed.head?.map (·.1) ≠ some bracket) (more : List Token) :
    checkBalanced unclosed (closer :: more) = .error ⟨.unmatched closer.text, closer.span⟩ := by
  obtain ⟨kind, span⟩ := closer
  cases hclose
  cases unclosed with
  | nil => rfl
  | cons top outer =>
    rw [checkBalanced, if_neg]
    · rfl
    · rintro rfl
      exact h rfl

/-- **Where the check stands.** All closing brackets match so far and the stack is what is
    left open, or the check has stopped. -/
theorem exists_leavesOpen_or_stopsAt (tokens : List Token) :
    (AllMatch tokens ∧ ∃ unclosed, LeavesOpen unclosed tokens) ∨
      ∃ closer, StopsAt tokens closer := by
  -- The induction is on the last token: the stack tells what is open before it.
  induction tokens using List.reverseRecOn with
  | nil => exact .inl ⟨allMatch_nil, [], .nested .nil⟩
  | append_singleton tokens t ih =>
    rcases ih with ⟨hmatch, unclosed, hopen⟩ | ⟨closer, hstops⟩
    · cases hkind : t.kind with
      | opening bracket =>
        obtain ⟨kind, span⟩ := t
        cases hkind
        exact .inl ⟨allMatch_append hmatch nofun, _, .opening hopen .nil⟩
      | closing bracket =>
        by_cases htop : unclosed.head?.map (·.1) = some bracket
        · left
          refine ⟨allMatch_append hmatch fun _ => (hopen.closesLast_iff hkind).2 htop, ?_⟩
          cases unclosed with
          | nil => cases htop
          | cons top outer =>
            cases htop
            exact ⟨outer, hopen.close hkind⟩
        · right
          have hclosing : t.kind.isClosing = true := by rw [hkind]; rfl
          refine ⟨t, ⟨tokens, ⟨[], rfl⟩, hclosing, mt (hopen.closesLast_iff hkind).1 htop,
            hmatch⟩, ?_⟩
          intro more
          rw [List.append_assoc, hopen.checkBalanced_append]
          exact checkBalanced_mismatch hkind htop more
      | _ =>
        left
        refine ⟨allMatch_append hmatch (by rw [hkind]; nofun), unclosed, hopen.append ?_⟩
        exact .plain (by rw [hkind]; rfl) (by rw [hkind]; rfl) .nil
    · exact .inr ⟨closer, hstops.append [t]⟩

/-- There is one first mismatch at most. -/
theorem IsFirstMismatch.unique {before' : List Token} {closer' : Token}
    (h : IsFirstMismatch tokens before closer) (h' : IsFirstMismatch tokens before' closer') :
    closer = closer' := by
  obtain ⟨after, rfl⟩ := h.eq
  obtain ⟨after', heq⟩ := h'.eq
  rcases List.append_eq_append_iff.1 heq with ⟨part, hbefore, hpart⟩ | ⟨part, hbefore, hpart⟩
  · cases part with
    | nil => exact (List.cons.inj hpart).1
    | cons first part =>
      obtain ⟨rfl, -⟩ := List.cons.inj hpart
      exact absurd (h'.first before closer part hbefore h.closing) h.mismatch
  · cases part with
    | nil => exact (List.cons.inj hpart).1.symm
    | cons first part =>
      obtain ⟨rfl, -⟩ := List.cons.inj hpart
      exact absurd (h.first before' closer' part hbefore h'.closing) h'.mismatch

theorem IsFirstMismatch.not_allMatch (h : IsFirstMismatch tokens before closer) :
    ¬ AllMatch tokens := by
  intro hmatch
  obtain ⟨after, heq⟩ := h.eq
  exact h.mismatch (hmatch before closer after heq h.closing)

/-- **Who is to blame** for brackets that are not in the language. -/
inductive Blames (tokens : List Token) : SyntaxError → Prop
  | mismatch {before : List Token} {closer : Token} (h : IsFirstMismatch tokens before closer) :
      Blames tokens ⟨.unmatched closer.text, closer.span⟩
  | unclosed {opener : Token} {behind : List Token} (hmatch : AllMatch tokens)
      (h : IsLastUnclosed tokens opener behind) :
      Blames tokens ⟨.unclosed opener.text, opener.span⟩

/-- **The check blames the right bracket.** -/
theorem balanced_eq_error_iff {e : SyntaxError} : balanced tokens = .error e ↔ Blames tokens e := by
  unfold balanced
  -- The check comes to the end, and blames what is left open, or it stops before.
  rcases exists_leavesOpen_or_stopsAt tokens with ⟨hmatch, unclosed, hopen⟩ |
    ⟨closer, ⟨before, hfirst⟩, hcheck⟩
  · have hcheck := hopen.checkBalanced_append []
    rw [List.append_nil] at hcheck
    rw [hcheck]
    cases unclosed with
    | nil =>
      constructor
      · intro herror
        cases herror
      · rintro (hfirst | ⟨-, hlast⟩)
        · exact absurd hmatch hfirst.not_allMatch
        · exact absurd hlast (hopen.not_isLastUnclosed _ _)
    | cons top outer =>
      obtain ⟨bracket, span⟩ := top
      obtain ⟨behind, hlast⟩ := hopen.isLastUnclosed
      constructor
      · rintro ⟨⟩
        exact .unclosed hmatch hlast
      · rintro (hfirst | ⟨-, hlast'⟩)
        · exact absurd hmatch hfirst.not_allMatch
        · rw [← hlast.unique hlast']
          rfl
  · have hstops := hcheck []
    rw [List.append_nil] at hstops
    rw [hstops]
    constructor
    · rintro ⟨⟩
      exact .mismatch hfirst
    · rintro (hfirst' | ⟨hmatch, -⟩)
      · rw [hfirst.unique hfirst']
      · exact absurd hmatch hfirst.not_allMatch

/-! ## Nesting depth -/

/-- **Do `n` groups stand around a place** between tokens before it and behind it? -/
inductive StandsWithin : Nat → List Token → List Token → Prop
  | outside {before behind : List Token} (hbefore : AreNested before)
      (hbehind : AreNested behind) : StandsWithin 0 before behind
  | inside {n : Nat} {before behind inner inner' : List Token} {opener closer : Token}
      {bracket : Bracket} (houter : StandsWithin n before behind)
      (hopen : opener.kind = .opening bracket) (hclose : closer.kind = .closing bracket)
      (hinner : AreNested inner) (hinner' : AreNested inner') :
      StandsWithin (n + 1) (before ++ opener :: inner) (inner' ++ closer :: behind)

/-- Nested tokens before it change nothing. -/
theorem StandsWithin.prepend {n : Nat} (h : StandsWithin n before behind)
    (hmore : AreNested inner) : StandsWithin n (inner ++ before) behind := by
  induction h with
  | outside hbefore hbehind => exact .outside (hmore.append hbefore) hbehind
  | inside _ hopen hclose hinner hinner' ih =>
    rw [← List.append_assoc]
    exact .inside ih hopen hclose hinner hinner'

/-- One group more stands around everything. -/
theorem StandsWithin.wrap {n : Nat} (h : StandsWithin n before behind)
    (hopen : opener.kind = .opening bracket) (hclose : closer.kind = .closing bracket)
    (hrest : AreNested rest) :
    StandsWithin (n + 1) (opener :: before) (behind ++ closer :: rest) := by
  induction h with
  | outside hbefore hbehind => exact .inside (.outside .nil hrest) hopen hclose hbefore hbehind
  | inside _ hopen' hclose' hinner hinner' ih =>
    rw [List.append_assoc, List.cons_append]
    exact .inside ih hopen' hclose' hinner hinner'

/-- Every place in nested tokens stands within some number of groups. -/
theorem AreNested.exists_standsWithin (h : AreNested tokens) (heq : tokens = before ++ behind) :
    ∃ n, StandsWithin n before behind := by
  induction h using AreNested.induction generalizing before behind with
  | nil =>
    obtain ⟨rfl, rfl⟩ := List.append_eq_nil_iff.1 heq.symm
    exact ⟨0, .outside .nil .nil⟩
  | plain t tokens hopen hclose h ih =>
    cases before with
    | nil =>
      rw [List.nil_append] at heq
      exact ⟨0, .outside .nil (heq ▸ .plain hopen hclose h)⟩
    | cons first before =>
      obtain ⟨rfl, hrest⟩ := List.cons.inj heq
      obtain ⟨n, hn⟩ := ih hrest
      exact ⟨n, hn.prepend (.plain hopen hclose .nil)⟩
  | group opener inner closer rest bracket hopen hclose hinner hrest ihInner ih =>
    cases before with
    | nil =>
      rw [List.nil_append] at heq
      exact ⟨0, .outside .nil (heq ▸ .group hopen hclose hinner hrest)⟩
    | cons first before =>
      obtain ⟨rfl, htail⟩ := List.cons.inj heq
      rcases List.append_eq_append_iff.1 htail with ⟨part, rfl, hpart⟩ | ⟨part, hfront, rfl⟩
      · cases part with
        | nil =>
          -- The place is just before the closing bracket.
          obtain ⟨n, hn⟩ := ihInner (List.append_nil inner).symm
          rw [List.nil_append] at hpart
          rw [List.append_nil, ← hpart]
          exact ⟨n + 1, hn.wrap hopen hclose hrest⟩
        | cons _ part =>
          obtain ⟨rfl, hbehind⟩ := List.cons.inj hpart
          obtain ⟨n, hn⟩ := ih hbehind
          refine ⟨n, ?_⟩
          have hbefore := hn.prepend (.group hopen hclose hinner .nil)
          simpa using hbefore
      · obtain ⟨n, hn⟩ := ihInner hfront
        exact ⟨n + 1, hn.wrap hopen hclose hrest⟩

theorem StandsWithin.depthBehind_eq {n : Nat} (h : StandsWithin n before behind) :
    depthBehind 0 before = n := by
  induction h with
  | outside hbefore _ => exact depthBehind_of_areNested hbefore 0
  | inside _ hopen _ hinner _ ih =>
    rw [depthBehind_append, ih, depthBehind_cons, depthAfter_opening hopen,
      depthBehind_of_areNested hinner]

/-- **The depth is the number of groups** around a place, wherever the brackets are
    nested. -/
theorem AreNested.depthBehind_eq_iff {n : Nat} (h : AreNested (before ++ behind)) :
    depthBehind 0 before = n ↔ StandsWithin n before behind := by
  constructor
  · rintro rfl
    obtain ⟨n, hn⟩ := h.exists_standsWithin rfl
    rw [hn.depthBehind_eq]
    exact hn
  · exact StandsWithin.depthBehind_eq

/-! ## The check and the depth together -/

/-- **What the check of brackets decides**, and what the depth means where it passes. -/
structure ChecksBrackets (tokens : List Token) : Prop where
  /-- The brackets that pass, all other tokens left out, are those of the language. -/
  passes : balanced tokens = .ok () ↔ Dyck (brackets tokens)
  /-- A fault names the first closing bracket that does not match, and where all of them
      match the last bracket that is never closed. -/
  blames : ∀ e, balanced tokens = .error e ↔ Blames tokens e
  /-- The depth at each token is the number of groups around it. -/
  depth : balanced tokens = .ok () → ∀ before behind, tokens = before ++ behind →
    ∀ n, depthBehind 0 before = n ↔ StandsWithin n before behind
  /-- So a separator is looked for outside all groups: the first one there is found. -/
  splits : balanced tokens = .ok () → ∀ separator before found after,
    splitAtTop? separator 0 tokens = some (before, found, after) ↔
      tokens = before ++ found :: after ∧ found.kind = separator ∧
        StandsWithin 0 before (found :: after) ∧
        ∀ earlier t later, before = earlier ++ t :: later → t.kind = separator →
          ¬ StandsWithin 0 earlier (t :: (later ++ found :: after))

/-- **The check of brackets decides the language of brackets** and blames the right one. -/
theorem checksBrackets (tokens : List Token) : ChecksBrackets tokens := by
  have hdepth : balanced tokens = .ok () → ∀ before behind, tokens = before ++ behind →
      ∀ n, depthBehind 0 before = n ↔ StandsWithin n before behind := by
    rintro hok before behind rfl n
    exact (balanced_iff.1 hok).depthBehind_eq_iff
  constructor
  case passes => rw [balanced_iff, areNested_iff_dyck]
  case blames => exact fun e => balanced_eq_error_iff
  case depth => exact hdepth
  case splits =>
    intro hok separator before found after
    rw [splitAtTop?_eq_some_iff]
    refine and_congr_right fun heq => and_congr_right fun _ =>
      and_congr (hdepth hok before _ heq 0) ?_
    refine forall_congr' fun earlier => forall_congr' fun t => forall_congr' fun later =>
      forall_congr' fun hbefore => imp_congr_right fun _ => not_congr ?_
    apply hdepth hok
    rw [heq, hbefore, List.append_assoc, List.cons_append]

/-- In `([)` the closing bracket is to blame, and in `([]` the first bracket. -/
example :
    balanced (bare [.opening .paren, .opening .square, .closing .paren]) =
        .error ⟨.unmatched ")", .dummy⟩ ∧
      balanced (bare [.opening .paren, .opening .square, .closing .square]) =
        .error ⟨.unclosed "(", .dummy⟩ := ⟨rfl, rfl⟩

end ElmIntake
