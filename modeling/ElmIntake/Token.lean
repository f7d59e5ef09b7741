import ElmIntake.Span
import ElmIntake.Text.Quoted

/-! # Tokens of Elm

    The words and marks that an Elm source is made of, each with its place.
    Comments are not tokens, save for documentation comments. -/

namespace ElmIntake

/-! ## Keywords and brackets -/

/-- Words that cannot be used as names. -/
inductive Keyword where
  | moduleWord | portWord | effectWord | exposingWord | importWord | asWord | typeWord
  | aliasWord | infixWord | whereWord | letWord | inWord | ifWord | thenWord | elseWord
  | caseWord | ofWord
  deriving Repr, DecidableEq

namespace Keyword

/-- The word as it stands in a source. -/
def text : Keyword → String
  | moduleWord => "module"
  | portWord => "port"
  | effectWord => "effect"
  | exposingWord => "exposing"
  | importWord => "import"
  | asWord => "as"
  | typeWord => "type"
  | aliasWord => "alias"
  | infixWord => "infix"
  | whereWord => "where"
  | letWord => "let"
  | inWord => "in"
  | ifWord => "if"
  | thenWord => "then"
  | elseWord => "else"
  | caseWord => "case"
  | ofWord => "of"

/-- All keywords. -/
def all : List Keyword :=
  [moduleWord, portWord, effectWord, exposingWord, importWord, asWord, typeWord, aliasWord,
    infixWord, whereWord, letWord, inWord, ifWord, thenWord, elseWord, caseWord, ofWord]

/-- The keyword that a word is, if it is one. -/
def ofText? (word : String) : Option Keyword := all.find? (·.text == word)

/-- The list of all keywords leaves none out. -/
theorem mem_all (k : Keyword) : k ∈ all := by cases k <;> decide

end Keyword

/-- The three kinds of bracket. -/
inductive Bracket where
  | paren
  | square
  | brace
  deriving Repr, DecidableEq

namespace Bracket

/-- The bracket that opens a group. -/
def openText : Bracket → String
  | paren => "("
  | square => "["
  | brace => "\x7b"

/-- The bracket that closes it. -/
def closeText : Bracket → String
  | paren => ")"
  | square => "]"
  | brace => "\x7d"

end Bracket

/-! ## Tokens -/

/-- What a token is, with the text or value that it carries. -/
inductive TokenKind where
  | keyword (word : Keyword)
  /-- A name whose last segment is not capitalised, with any qualifier or
      record access before it: `List.map`, `model.count`. -/
  | lowerName (name : String)
  /-- A name all of whose segments are capitalised: `Html.Attributes`. -/
  | upperName (name : String)
  | operator (symbols : String)
  | number (digits : String)
  | string (value : String)
  | char (value : String)
  /-- A block of shader code. -/
  | shader (code : String)
  /-- A documentation comment. -/
  | doc (text : String)
  | opening (bracket : Bracket)
  | closing (bracket : Bracket)
  | comma
  | equals
  | colon
  | pipe
  | arrow
  | backslash
  | wildcard
  /-- The end of the source. -/
  | eof
  deriving Repr, DecidableEq

/-- A token and its place. -/
structure Token where
  kind : TokenKind
  span : Span
  deriving Repr, DecidableEq

namespace TokenKind

/-- The token as it could stand in a source. -/
def text : TokenKind → String
  | keyword word => word.text
  | lowerName name => name
  | upperName name => name
  | operator symbols => symbols
  | number digits => digits
  | string value => Text.quote value
  | char value => "'" ++ value ++ "'"
  | shader code => "[glsl|" ++ code ++ "|]"
  | doc text => "\x7b-|" ++ text ++ "-\x7d"
  | opening bracket => bracket.openText
  | closing bracket => bracket.closeText
  | comma => ","
  | equals => "="
  | colon => ":"
  | pipe => "|"
  | arrow => "->"
  | backslash => "\\"
  | wildcard => "_"
  | eof => ""

/-- Does the token open a group? -/
def isOpening : TokenKind → Bool
  | opening _ => true
  | _ => false

/-- Does the token close a group? -/
def isClosing : TokenKind → Bool
  | closing _ => true
  | _ => false

end TokenKind

namespace Token

/-- The token as it could stand in a source. -/
def text (t : Token) : String := t.kind.text

/-- Does the token stand in the first column? There it starts a top-level
    item. -/
def inFirstColumn (t : Token) : Bool := t.span.column == 1

end Token

end ElmIntake
