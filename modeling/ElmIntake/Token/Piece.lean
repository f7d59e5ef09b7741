import ElmIntake.Diagnostic
import ElmIntake.Token.Lossless

/-! # Cutting a source into tokens

    A source is cut, from left to right, into **pieces**: tokens, and the
    blanks and comments between them. The pieces joined together are the
    source again. Positions come in only afterwards, as the pieces are laid
    one behind the other. -/

namespace ElmIntake

/-! ## Pieces -/

/-- A stretch of source: a token, or a blank or comment. -/
structure Piece where
  kind : Option TokenKind
  text : List Char
  deriving Repr, DecidableEq

/-- Cuts a source into pieces; `done` are those already cut, last one first. -/
def cutPieces (done : List Piece) : List Char → Except LexFault (List Piece)
  | [] => .ok done.reverse
  | c :: cs =>
    match _h : readPiece c cs with
    | .error fault => .error fault
    | .ok cut => cutPieces (⟨cut.value, cut.text⟩ :: done) cut.rest
termination_by cs => cs.length
decreasing_by exact (readPiece_takes ‹_›).length_lt

/-! ## Tokens with their places -/

/-- Lays pieces behind one another from the position `p` on, keeping the tokens
    and adding the end of the source. -/
def placePieces (p : Position) : List Piece → List Token
  | [] => [⟨.eof, p.spanTo p⟩]
  | piece :: pieces =>
    let q := p.past piece.text
    match piece.kind with
    | some kind => ⟨kind, p.spanTo q⟩ :: placePieces q pieces
    | none => placePieces q pieces

/-- A lexical fault with its place. -/
structure LexError where
  cause : LexCause
  span : Span
  deriving Repr, DecidableEq

namespace LexError

/-- The place in `source` of a fault found while cutting it. -/
def ofFault (source : List Char) (fault : LexFault) : LexError :=
  let before (unread : List Char) : Position :=
    Position.start.past (source.take (source.length - unread.length))
  ⟨fault.cause, (before fault.start).spanTo (before fault.stop)⟩

/-- The wording of the error. -/
def message (e : LexError) : String := e.cause.message

/-- Printed form: the message and its line. -/
protected def toString (e : LexError) : String := s!"{e.message} at line {e.span.line}"

instance : ToString LexError := ⟨LexError.toString⟩

/-- The error as a diagnostic. -/
def diagnostic (e : LexError) : Diagnostic := .error e.span e.message

end LexError

/-- The tokens of a source, the last of which is its end. -/
def Token.ofSource (source : String) : Except LexError (List Token) :=
  let chars := source.toList
  match cutPieces [] chars with
  | .ok pieces => .ok (placePieces .start pieces)
  | .error fault => .error (.ofFault chars fault)

end ElmIntake
