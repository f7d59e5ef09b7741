/-! # Lexical faults

    Why a source cannot be cut into tokens, and which part of it is to blame.
    The blame is given without positions: by the source that was still unread
    where the blamed stretch begins and where it ends. -/

namespace ElmIntake

/-- Why a source cannot be cut into pieces. -/
inductive LexCause where
  | tab
  | unexpected (c : Char)
  | unterminatedString
  | unterminatedComment
  | unterminatedShader
  | invalidCharacter
  | invalidEscape
  | invalidUnicodeEscape
  | missingHexDigits
  | nameAfterNumber
  deriving Repr, DecidableEq

/-- The wording of a cause. -/
def LexCause.message : LexCause → String
  | tab => "Tab characters are not allowed in Elm source"
  | unexpected c => "Unexpected character '" ++ c.toString ++ "'"
  | unterminatedString => "Unterminated string"
  | unterminatedComment => "Unterminated block comment"
  | unterminatedShader => "Unterminated glsl block"
  | invalidCharacter => "Invalid character literal"
  | invalidEscape => "Invalid escape sequence"
  | invalidUnicodeEscape => "Invalid unicode escape"
  | missingHexDigits => "Expected hexadecimal digits after 0x"
  | nameAfterNumber => "Numbers cannot be directly followed by a name"

/-- A cause and the stretch of source to blame for it, given by the unread
    source at its start and at its end. -/
structure LexFault where
  cause : LexCause
  start : List Char
  stop : List Char
  deriving Repr, DecidableEq

/-- A fault at one point of the source. -/
def LexFault.here (cause : LexCause) (unread : List Char) : LexFault := ⟨cause, unread, unread⟩

end ElmIntake
