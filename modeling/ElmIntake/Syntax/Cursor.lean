import ElmIntake.Syntax.Item
import ElmIntake.Syntax.Group
import ElmIntake.Syntax.Tree

/-! # Reading an item token by token

    The readers of this library's grammar look at one item from left to right
    and stop at the first fault. A **cursor** is what such a reader knows: the
    tokens ahead, and the place of the token read last, which is to blame when
    the item ends too early. -/

namespace ElmIntake

/-- A place between the tokens of an item. -/
structure Cursor where
  /-- The place of the token just read; a dummy before the first one. -/
  behind : Span
  /-- The tokens still to be read. -/
  ahead : List Token
  deriving Repr, DecidableEq

/-- A reader of tokens. -/
abbrev Reader (α : Type) := StateT Cursor (Except SyntaxError) α

namespace Cursor

/-- Before the first of the tokens. -/
def start (tokens : List Token) : Cursor := ⟨.dummy, tokens⟩

/-- The place of the token ahead, or at the end of the last one read. -/
def span (c : Cursor) : Span := (c.ahead.head?.map (·.span)).getD c.behind

/-- The cursor after the next `n` tokens. -/
def skip (c : Cursor) (n : Nat) : Cursor :=
  ⟨((c.ahead.take n).getLast?.map (·.span)).getD c.behind, c.ahead.drop n⟩

end Cursor

namespace Reader

/-! ## Looking -/

/-- The kind of the token ahead. -/
def peek? : Reader (Option TokenKind) := do return (← get).ahead.head?.map (·.kind)

/-- The kind of the token after the one ahead. -/
def peekSecond? : Reader (Option TokenKind) := do return (← get).ahead[1]?.map (·.kind)

/-- The place of the token ahead, or at the end of the last one read. -/
def here : Reader Span := do return (← get).span

/-- The place of the token read last. -/
def behind : Reader Span := do return (← get).behind

/-- The span from `first` up to the token read last. -/
def since (first : Span) : Reader Span := do return first.combine (← behind)

/-! ## Failing -/

/-- Fails with the blame on `span`. -/
def failAt {α : Type} (cause : SyntaxCause) (span : Span) : Reader α :=
  throw ⟨cause, span⟩

/-- Fails where the reader stands. -/
def fail {α : Type} (cause : SyntaxCause) : Reader α := do failAt cause (← here)

/-- Fails where the reader stands, for want of `what`. -/
def missing {α : Type} (what : Expected) : Reader α := fail (.expected what)

/-! ## Moving on -/

/-- Reads the token ahead, which is there if the item is well formed. -/
def next (what : Expected) : Reader Token := do
  match (← get).ahead.head? with
  | some t => modifyGet fun c => (t, c.skip 1)
  | none => missing what

/-- Reads the token ahead if it is of the kind `kind`, and says whether it was. -/
def accept (kind : TokenKind) : Reader Bool := do
  if (← peek?) = some kind then modifyGet fun c => (true, c.skip 1) else return false

/-- Reads a token of the kind `kind`. -/
def expect (kind : TokenKind) (what : Expected) : Reader Span := do
  let span ← here
  if ← accept kind then return span else missing what

/-- Reads a keyword. -/
def expectKeyword (word : Keyword) (what : Expected) : Reader Unit := do
  let _ ← expect (.keyword word) what

/-- Reads all tokens that are left. -/
def remaining : Reader (List Token) :=
  modifyGet fun c => (c.ahead, c.skip c.ahead.length)

/-- Checks that an item ends where it is complete. -/
def expectEnd (item : Complete) : Reader Unit := do
  match (← get).ahead.head? with
  | none => return ()
  | some t => failAt (.trailing t.text item) t.span

/-- Runs a reader on the tokens of an item. -/
def onTokens {α : Type} (reader : Reader α) (tokens : List Token) : Except SyntaxError α :=
  StateT.run' reader (.start tokens)

end Reader

end ElmIntake
