import ElmIntake.Syntax.Fault

/-! # Brackets in token lists

    Which brackets belong together, and how a list of tokens falls apart into
    groups and into the parts between separators outside all brackets. -/

namespace ElmIntake

/-! ## Balance -/

/-- Checks that every closing bracket matches the last one still open;
    `unclosed` are the open ones, innermost first. The first closing bracket
    that does not match is to blame, else the last bracket that stays open. -/
def checkBalanced (unclosed : List (Bracket × Span)) : List Token → Except SyntaxError Unit
  | [] =>
    match unclosed with
    | [] => .ok ()
    | (bracket, span) :: _ => .error ⟨.unclosed bracket.openText, span⟩
  | ⟨.opening bracket, span⟩ :: tokens => checkBalanced ((bracket, span) :: unclosed) tokens
  | ⟨.closing bracket, span⟩ :: tokens =>
    match unclosed with
    | (opener, _) :: outer =>
      if opener = bracket then checkBalanced outer tokens
      else .error ⟨.unmatched bracket.closeText, span⟩
    | [] => .error ⟨.unmatched bracket.closeText, span⟩
  | _ :: tokens => checkBalanced unclosed tokens

/-- Are the brackets of the tokens balanced? -/
def balanced (tokens : List Token) : Except SyntaxError Unit := checkBalanced [] tokens

/-! ## Depth -/

/-- The number of brackets open after a token, from the number before it. A
    closing bracket outside all groups changes nothing. -/
def depthAfter (depth : Nat) (kind : TokenKind) : Nat :=
  if kind.isOpening then depth + 1
  else if kind.isClosing then depth - 1
  else depth

/-- Splits the tokens at the first one outside all brackets that is of the kind
    `separator`, into those before it, itself, and those after it. -/
def splitAtTop? (separator : TokenKind) (depth : Nat) :
    List Token → Option (List Token × Token × List Token)
  | [] => none
  | t :: tokens =>
    if depth = 0 ∧ t.kind = separator then some ([], t, tokens)
    else
      (splitAtTop? separator (depthAfter depth t.kind) tokens).map
        fun (before, found, after) => (t :: before, found, after)

/-- The parts of the tokens between those outside all brackets that are of the
    kind `separator`. -/
def partsAtTop (separator : TokenKind) (depth : Nat) : List Token → List (List Token)
  | [] => [[]]
  | t :: tokens =>
    if depth = 0 ∧ t.kind = separator then [] :: partsAtTop separator 0 tokens
    else
      match partsAtTop separator (depthAfter depth t.kind) tokens with
      | [] => [[t]]
      | part :: parts => (t :: part) :: parts

/-- A non-empty run of tokens that belong together: a single one, or a bracket
    with all up to the one that closes it. -/
structure Atom where
  first : Token
  rest : List Token
  deriving Repr, DecidableEq

namespace Atom

/-- The tokens of an atom. -/
def tokens (a : Atom) : List Token := a.first :: a.rest

/-- The place of an atom, from its first to its last token. -/
def span (a : Atom) : Span :=
  a.first.span.combine ((a.rest.getLast?.map (·.span)).getD a.first.span)

end Atom

/-- Falls apart into atoms; `depth` brackets are open before the tokens. -/
def atomsFrom (depth : Nat) : List Token → List Atom
  | [] => []
  | t :: tokens =>
    let depth := depthAfter depth t.kind
    -- Within brackets a token joins the atom of those behind it.
    if depth = 0 then ⟨t, []⟩ :: atomsFrom 0 tokens
    else
      match atomsFrom depth tokens with
      | [] => [⟨t, []⟩]
      | atom :: atoms => ⟨t, atom.tokens⟩ :: atoms

/-- The atoms of a list of tokens. -/
def atoms (tokens : List Token) : List Atom := atomsFrom 0 tokens

/-! ## Tokens as text -/

/-- Must no blank stand before a token of the kind `kind` that follows one of the
    kind `previous`? -/
def isTight (previous kind : TokenKind) : Bool :=
  previous.isOpening || kind == .comma || kind.isClosing

/-- The texts of the tokens after one of the kind `previous`, each one with the
    blank before it. -/
def spacedAfter (previous : TokenKind) : List Token → List String
  | [] => []
  | t :: tokens =>
    (if isTight previous t.kind then t.text else " " ++ t.text) :: spacedAfter t.kind tokens

/-- The tokens as text: single blanks between them, but none inside a bracket and
    none before a comma. -/
def render : List Token → String
  | [] => ""
  | t :: tokens => String.join (t.text :: spacedAfter t.kind tokens)

end ElmIntake
