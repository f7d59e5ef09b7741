import ElmIntake.Syntax.Grammar
import ElmIntake.Proofs.Token.Verbatim
import Mathlib.Data.List.Infix

/-! # Where the parts of an item stand

    A reader of items moves a cursor over the tokens of one item, and puts places
    together from those of the tokens that it passes. What it gives is judged
    together with where it stands: a reader **moves** the cursor from one set of
    places to another.

    Every name that is read is one of the tokens, and the place of a whole item is
    that of all its tokens, since each reader goes on to their end. -/

namespace ElmIntake

/-! ## Dotted names -/

theorem dottedParts_ne_nil (cs : List Char) : dottedParts cs ≠ [] := by
  cases cs with
  | nil => exact List.cons_ne_nil _ _
  | cons c cs =>
    unfold dottedParts
    split
    · exact List.cons_ne_nil _ _
    · split <;> exact List.cons_ne_nil _ _

theorem intercalate_dottedParts (cs : List Char) : ['.'].intercalate (dottedParts cs) = cs := by
  induction cs with
  | nil => rfl
  | cons c cs ih =>
    cases hparts : dottedParts cs with
    | nil => exact absurd hparts (dottedParts_ne_nil cs)
    | cons part parts =>
      rw [hparts] at ih
      by_cases hdot : c = '.'
      · rw [dottedParts, if_pos hdot, hparts, List.intercalate_cons_cons, ih, hdot]
        rfl
      · rw [dottedParts, if_neg hdot, hparts]
        cases parts with
        | nil => simpa using ih
        | cons next parts =>
          rw [List.intercalate_cons_cons] at ih ⊢
          rw [← ih]
          rfl

/-- A name that is cut at its dots is put together as it was. -/
theorem ModuleName.dotted_ofDotted (name : String) : (ofDotted name).dotted = name := by
  unfold dotted ofDotted
  apply String.toList_inj.1
  rw [String.toList_intercalate, List.map_map]
  have hparts : (dottedParts name.toList).map (String.toList ∘ String.ofList) =
      dottedParts name.toList := by
    simp [Function.comp_def]
  rw [hparts]
  exact intercalate_dottedParts name.toList

/-! ## Names and places among tokens -/

/-- Is a name one of the tokens, with its place? -/
def Located.IsOf (name : Located String) (tokens : List Token) : Prop :=
  ∃ t ∈ tokens, t.kind.isVerbatim = true ∧ t.text = name.node ∧ t.span = name.span

/-- Is a span the place of some tokens in a row? -/
def Span.IsOf (s : Span) (tokens : List Token) : Prop :=
  ∃ part, part ≠ [] ∧ part <:+: tokens ∧ s = Reader.spanOf part

theorem Located.IsOf.of_mem {tokens : List Token} {t : Token} {name : String} (ht : t ∈ tokens)
    (hverbatim : t.kind.isVerbatim = true) (htext : t.text = name) :
    (⟨name, t.span⟩ : Located String).IsOf tokens :=
  ⟨t, ht, hverbatim, htext, rfl⟩

theorem Located.IsOf.mono {tokens tokens' : List Token} {name : Located String}
    (h : name.IsOf tokens) (hsubset : tokens ⊆ tokens') : name.IsOf tokens' := by
  obtain ⟨t, ht, hname⟩ := h
  exact ⟨t, hsubset ht, hname⟩

theorem Span.combine_self (s : Span) : s.combine s = s := by
  have hstart : min s.start s.start = s.start := ite_self _
  have hstop : max s.stop s.stop = s.stop := ite_self _
  unfold combine
  rw [hstart, hstop, ite_self]

theorem Reader.spanOf_singleton (t : Token) : spanOf [t] = t.span := Span.combine_self t.span

theorem Span.IsOf.of_mem {tokens : List Token} {t : Token} (ht : t ∈ tokens) :
    t.span.IsOf tokens :=
  ⟨[t], List.cons_ne_nil _ _, (List.singleton_infix_iff _ _).2 ht, (Reader.spanOf_singleton t).symm⟩

theorem Located.IsOf.span {tokens : List Token} {name : Located String} (h : name.IsOf tokens) :
    name.span.IsOf tokens := by
  obtain ⟨t, ht, -, -, hspan⟩ := h
  rw [← hspan]
  exact .of_mem ht

theorem Span.IsOf.mono {tokens tokens' : List Token} {s : Span} (h : s.IsOf tokens)
    (hrow : tokens <:+: tokens') : s.IsOf tokens' := by
  obtain ⟨part, hne, hpart, hs⟩ := h
  exact ⟨part, hne, hpart.trans hrow, hs⟩

/-! ## Cursors -/

namespace Cursor

/-- Is the cursor in the tokens of an item, with the last one read behind it? -/
def IsIn (tokens : List Token) (c : Cursor) : Prop :=
  ∃ read, tokens = read ++ c.ahead ∧ c.behind = (read.getLast?.map (·.span)).getD .dummy

/-- Has the cursor passed all the tokens? -/
def IsAtEnd (tokens : List Token) (c : Cursor) : Prop := c.IsIn tokens ∧ c.ahead = []

variable {tokens : List Token} {c : Cursor}

theorem isIn_start (tokens : List Token) : (start tokens).IsIn tokens := ⟨[], rfl, rfl⟩

theorem IsIn.ahead_suffix (h : c.IsIn tokens) : c.ahead <:+ tokens := by
  obtain ⟨read, htokens, -⟩ := h
  exact ⟨read, htokens.symm⟩

theorem IsIn.skip (h : c.IsIn tokens) (n : Nat) : (c.skip n).IsIn tokens := by
  obtain ⟨read, htokens, hbehind⟩ := h
  refine ⟨read ++ c.ahead.take n, ?_, ?_⟩
  · show tokens = read ++ c.ahead.take n ++ c.ahead.drop n
    rw [List.append_assoc, List.take_append_drop, htokens]
  · show ((c.ahead.take n).getLast?.map (·.span)).getD c.behind = _
    rw [List.getLast?_append, hbehind]
    cases (c.ahead.take n).getLast? <;> rfl

/-- What is behind a cursor at the end is the last token. -/
theorem IsAtEnd.behind_eq {t : Token} {rest : List Token} (h : c.IsAtEnd (t :: rest)) :
    t.span.combine c.behind = Reader.spanOf (t :: rest) := by
  obtain ⟨⟨read, htokens, hbehind⟩, hahead⟩ := h
  rw [hahead, List.append_nil] at htokens
  rw [hbehind, ← htokens, List.getLast?_cons]
  show _ = t.span.combine _
  cases rest.getLast? <;> rfl

end Cursor

namespace Reader

/-! ## Moving the cursor -/

/-- Does the reader, wherever it succeeds from a place with the property `p`, move
    on to a place with the property `q` and give something with the property `P`? -/
def Moves {α : Type} (p q : Cursor → Prop) (reader : Reader α) (P : α → Prop) : Prop :=
  ∀ c a c', p c → reader c = .ok (a, c') → q c' ∧ P a

namespace Moves

variable {α β : Type} {p q r : Cursor → Prop} {P : α → Prop} {Q : β → Prop}

theorem pure {a : α} (h : P a) : Moves p p (Pure.pure a) P := by
  intro c b c' hc hb
  cases hb
  exact ⟨hc, h⟩

theorem failAt (cause : SyntaxCause) (span : Span) : Moves p q (Reader.failAt cause span) P := by
  intro c b c' _ hb
  cases hb

theorem bind {reader : Reader α} {next : α → Reader β} (h : Moves p q reader P)
    (hnext : ∀ a, P a → Moves q r (next a) Q) : Moves p r (reader >>= next) Q := by
  intro c b c' hc hb
  change (reader c >>= fun x => next x.1 x.2) = _ at hb
  cases hreader : reader c with
  | error e =>
    rw [hreader] at hb
    cases hb
  | ok x =>
    rw [hreader] at hb
    obtain ⟨hx, ha⟩ := h _ _ _ hc hreader
    exact hnext x.1 ha x.2 b c' hx hb

theorem lift {x : Except SyntaxError α} (h : ∀ a, x = .ok a → P a) :
    Moves p p (liftM x : Reader α) P := by
  intro c b c' hc hb
  cases x with
  | error e => cases hb
  | ok a =>
    cases hb
    exact ⟨hc, h _ rfl⟩

/-- A step for each of some things, one after the other. -/
theorem mapM {step : α → Reader β} {xs : List α} (h : ∀ x ∈ xs, Moves p p (step x) Q) :
    Moves p p (xs.mapM step) (∀ y ∈ ·, Q y) := by
  induction xs with
  | nil =>
    rw [List.mapM_nil]
    exact .pure (by simp)
  | cons x xs ih =>
    rw [List.mapM_cons]
    refine (h x List.mem_cons_self).bind fun y hy => ?_
    refine (ih fun x' hx' => h x' (List.mem_cons_of_mem x hx')).bind fun ys hys => .pure ?_
    exact List.forall_mem_cons.2 ⟨hy, hys⟩

theorem get : Moves p p (MonadState.get : Reader Cursor) p := by
  intro c a c' hc ha
  cases ha
  exact ⟨hc, hc⟩

/-- What a reader gives on all the tokens of an item. -/
theorem onTokens {reader : Reader α} {tokens : List Token} {a : α}
    (h : Moves (· = .start tokens) q reader P) (ha : reader.onTokens tokens = .ok a) : P a := by
  change (Prod.fst <$> reader (.start tokens)) = _ at ha
  cases hreader : reader (.start tokens) with
  | error e =>
    rw [hreader] at ha
    cases ha
  | ok x =>
    rw [hreader] at ha
    cases ha
    exact (h _ _ _ rfl hreader).2

end Moves

/-! ## Single steps -/

section

variable {tokens : List Token} {α : Type} {P : α → Prop} {p q : Cursor → Prop}

theorem peek?_moves : Moves p p peek? fun _ => True :=
  Moves.get.bind fun _ _ => .pure trivial

theorem peekSecond?_moves : Moves p p peekSecond? fun _ => True :=
  Moves.get.bind fun _ _ => .pure trivial

theorem atDots_moves : Moves p p atDots fun _ => True :=
  peek?_moves.bind fun _ _ => .pure trivial

theorem here_moves : Moves p p here fun _ => True :=
  Moves.get.bind fun _ _ => .pure trivial

/-- At the start of an item the place ahead is that of its first token. -/
theorem here_moves_start {t : Token} {rest : List Token} :
    Moves (· = .start (t :: rest)) (Cursor.IsIn (t :: rest)) here (· = t.span) := by
  intro c a c' hc ha
  subst hc
  cases ha
  exact ⟨Cursor.isIn_start _, rfl⟩

theorem behind_moves : Moves p p behind fun _ => True :=
  Moves.get.bind fun _ _ => .pure trivial

theorem since_moves (first : Span) : Moves p p (since first) fun _ => True :=
  behind_moves.bind fun _ _ => .pure trivial

/-- From its first token up to its end an item has the place of all its tokens. -/
theorem since_moves_end {t : Token} {rest : List Token} :
    Moves (Cursor.IsAtEnd (t :: rest)) (Cursor.IsAtEnd (t :: rest)) (since t.span)
      (· = spanOf (t :: rest)) := by
  intro c a c' hc ha
  cases ha
  exact ⟨hc, hc.behind_eq⟩

theorem fail_moves {cause : SyntaxCause} : Moves p q (fail cause : Reader α) P :=
  here_moves.bind fun _ _ => .failAt _ _

theorem missing_moves {what : Expected} : Moves p q (missing what : Reader α) P := fail_moves

theorem next_moves (what : Expected) :
    Moves (Cursor.IsIn tokens) (Cursor.IsIn tokens) (next what) (· ∈ tokens) := by
  rintro ⟨before, ahead⟩ a c' hc ha
  cases ahead with
  | nil => cases ha
  | cons t rest =>
    cases ha
    exact ⟨hc.skip 1, hc.ahead_suffix.subset List.mem_cons_self⟩

theorem accept_moves (kind : TokenKind) :
    Moves (Cursor.IsIn tokens) (Cursor.IsIn tokens) (accept kind) fun _ => True := by
  unfold accept
  refine peek?_moves.bind fun ahead _ => ?_
  split
  · intro c a c' hc ha
    cases ha
    exact ⟨hc.skip 1, trivial⟩
  · exact .pure trivial

theorem expect_moves (kind : TokenKind) (what : Expected) :
    Moves (Cursor.IsIn tokens) (Cursor.IsIn tokens) (expect kind what) fun _ => True := by
  unfold expect
  refine here_moves.bind fun span _ => ?_
  refine (accept_moves kind).bind fun accepted _ => ?_
  split
  · exact .pure trivial
  · exact missing_moves

theorem expectKeyword_moves (word : Keyword) (what : Expected) :
    Moves (Cursor.IsIn tokens) (Cursor.IsIn tokens) (expectKeyword word what) fun _ => True :=
  (expect_moves _ what).bind fun _ _ => .pure trivial

theorem remaining_moves :
    Moves (Cursor.IsIn tokens) (Cursor.IsAtEnd tokens) remaining (· <:+ tokens) := by
  intro c a c' hc ha
  cases ha
  exact ⟨⟨hc.skip _, List.drop_length⟩, hc.ahead_suffix⟩

theorem expectEnd_moves (item : Complete) :
    Moves (Cursor.IsIn tokens) (Cursor.IsAtEnd tokens) (expectEnd item) fun _ => True := by
  rintro ⟨before, ahead⟩ a c' hc ha
  cases ahead with
  | nil =>
    cases ha
    exact ⟨⟨hc, rfl⟩, trivial⟩
  | cons t rest => cases ha

end

end Reader

end ElmIntake
