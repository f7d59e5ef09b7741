import ElmIntake.Proofs.Checked.Machine
import ElmIntake.Proofs.Token.Tiling

/-! # The scanner, step by step

    `Token.ofSource` cuts a source into pieces without a word about positions. A
    **scanner** does the same with counters: the source is a table of characters
    and their offsets, and the scanner moves an index through it, counts lines and
    columns and looks back into the text at the offset where it stands. All of this
    is checked.

    The readers of `Token.Reader` serve for what takes no step: character classes,
    the kinds of words and symbols, and the code points that digits stand for. -/

namespace ElmIntake

open Machine (check loop)

/-- The characters of a text with the bytes before each one, `n` of which stand
    before the first. -/
def charIndices (n : Nat) : List Char → List (Nat × Char)
  | [] => []
  | c :: cs => (n, c) :: charIndices (n + c.utf8Size) cs

/-- A source and how far it has been read. -/
structure Scanner where
  source : List Char
  /-- The characters of the source and their offsets. -/
  table : List (Nat × Char)
  /-- The index in the table of the next character. -/
  index : Nat
  line : Nat
  column : Nat

/-- A checked reader of characters. -/
abbrev Scanning (α : Type) := Machine Scanner LexError α

namespace Scanner

/-- Before the first character of a source. -/
def start (source : List Char) : Scanner := ⟨source, charIndices 0 source, 0, 1, 1⟩

/-- The number of characters still to be read. -/
def left (s : Scanner) : Nat := s.table.length - s.index

/-- The offset of the next character, or the size of the source at its end. -/
def offset (s : Scanner) : Nat := ((s.table[s.index]?).map (·.1)).getD (byteSize s.source)

/-- Where the scanner stands. -/
def position (s : Scanner) : Position := ⟨s.offset, s.line, s.column⟩

/-! ## Single steps -/

/-- The `k`-th character ahead. -/
def peek? (k : Nat) : Scanning (Option Char) := do
  let s ← get
  let i ← check (Checked.word (s.index + k))
  return (s.table[i]?).map (·.2)

/-- Reads a character, unless the source is at its end. -/
def advance : Scanning (Option Char) := do
  match ← peek? 0 with
  | none => return none
  | some c =>
    let s ← get
    let index ← check (Checked.word (s.index + 1))
    if c = '\n' then
      let line ← check (Checked.halfWord (s.line + 1))
      set { s with index, line, column := 1 }
    else
      let column ← check (Checked.halfWord (s.column + 1))
      set { s with index, column }
    return some c

/-- Reads so many characters. -/
def advanceBy : (count : Nat) → Scanning Unit
  | 0 => return ()
  | count + 1 => do
    let _ ← advance
    advanceBy count

/-- Where the scanner stands. -/
def mark : Scanning Position := do return (← get).position

/-- Does the source go on with a text? It is looked up in the source itself, at the
    offset of the scanner. -/
def isAhead (text : List Char) : Scanning Bool := do
  let s ← get
  let rest ← check (Checked.textFrom s.offset s.source)
  return text.isPrefixOf rest

/-- The span from a mark up to where the scanner stands. -/
def spanFrom (m : Position) : Scanning Span := do
  let start ← check (Checked.narrow m.offset)
  let stop ← check (Checked.narrow (← get).offset)
  return ⟨start, stop, m.line.toUInt32, m.column.toUInt32⟩

/-- A token that began at a mark. -/
def token (kind : TokenKind) (m : Position) : Scanning Token := do return ⟨kind, ← spanFrom m⟩

/-- Reports what is wrong since a mark. -/
def failFrom {α : Type} (m : Position) (cause : LexCause) : Scanning α := do
  let span ← spanFrom m
  throw (.report ⟨cause, span⟩)

/-- Reports what is wrong where the scanner stands. -/
def failHere {α : Type} (cause : LexCause) : Scanning α := do failFrom (← mark) cause

/-- Reads one more character if it is of a class. -/
def classRound (p : Char → Bool) (text : List Char) : Scanning (Round (List Char) (List Char)) := do
  match ← peek? 0 with
  | none => return .done text
  | some c =>
    if p c then
      let _ ← advance
      return .again (text ++ [c])
    else return .done text

/-- Reads the characters of a class that come first. -/
def takeWhile (p : Char → Bool) : Scanning (List Char) := loop left (classRound p) []

/-! ## Names and numbers -/

/-- Reads one more segment of a name, if there is one; `upper` tells whether all of
    them so far are capitalised. -/
def segmentRound : List Char × Bool → Scanning (Round (List Char × Bool) (List Char × Bool))
  | (text, upper) => do
    if (← peek? 0) = some '.' then
      match ← peek? 1 with
      | none => return .done (text, upper)
      | some c =>
        if !Text.isAlphabetic c || (!upper && !Text.isLowercase c) then
          return .done (text, upper)
        else
          let _ ← advance
          let segment ← takeWhile isNameChar
          return .again (text ++ '.' :: segment, upper && segment.head?.any Text.isUppercase)
    else return .done (text, upper)

/-- Reads a name, a keyword or the wildcard. -/
def name (m : Position) : Scanning Token := do
  let first ← takeWhile isNameChar
  if first = ['_'] then token .wildcard m
  else
    let (text, upper) ←
      loop left segmentRound (first, first.head?.any Text.isUppercase)
    token (nameKind upper (String.ofList text)) m

/-- Reads the fraction of a number behind its digits `text`. -/
def fraction (text : List Char) : Scanning (List Char) := do
  if (← peek? 0) = some '.' then
    if (← peek? 1).any Char.isDigit then
      let _ ← advance
      return text ++ '.' :: (← takeWhile Char.isDigit)
    else return text
  else return text

/-- Reads so many characters and adds them to a text. -/
def advanceOnto (text : List Char) : (count : Nat) → Scanning (List Char)
  | 0 => return text
  | count + 1 => do
    match ← advance with
    | some c => advanceOnto (text ++ [c]) count
    | none => advanceOnto text count

/-- Reads the exponent of a number behind its digits `text`. -/
def exponent (text : List Char) : Scanning (List Char) := do
  let e ← peek? 0
  if e = some 'e' ∨ e = some 'E' then
    let s ← peek? 1
    let digitAt := if s = some '+' ∨ s = some '-' then 2 else 1
    if (← peek? digitAt).any Char.isDigit then
      let text ← advanceOnto text digitAt
      return text ++ (← takeWhile Char.isDigit)
    else return text
  else return text

/-- Reads a hexadecimal number, which needs a digit. -/
def hexDigits : Scanning (List Char) := do
  let _ ← advance
  let _ ← advance
  let hex ← takeWhile isHexDigit
  if hex.isEmpty then failHere .missingHexDigits else return '0' :: 'x' :: hex

/-- Reads a number that is not hexadecimal. -/
def decimalDigits : Scanning (List Char) := do
  let text ← takeWhile Char.isDigit
  exponent (← fraction text)

/-- Reads the digits of a number. -/
def digits : Scanning (List Char) := do
  let x ← peek? 1
  if (← peek? 0) = some '0' ∧ (x = some 'x' ∨ x = some 'X') then hexDigits else decimalDigits

/-- Reads a number. -/
def number (m : Position) : Scanning Token := do
  let text ← digits
  if (← peek? 0).any isNameChar then failHere .nameAfterNumber
  else token (.number (String.ofList text)) m

/-- Reads an operator. -/
def operator (m : Position) : Scanning Token := do
  let text ← takeWhile isSymbol
  token (symbolKind text) m

/-! ## Strings, characters, shaders and comments -/

/-- Reads a code point in braces, from the opening brace on; the escape began at
    the mark. -/
def codePoint (m : Position) : Scanning Char := do
  let _ ← advance
  let hex ← takeWhile isHexDigit
  if (← peek? 0) = some '}' then
    let _ ← advance
    match charOfHex? hex with
    | some c => return c
    | none => failFrom m .invalidUnicodeEscape
  else failFrom m .invalidUnicodeEscape

/-- Reads an escape, from its backslash on. -/
def escape : Scanning Char := do
  let m ← mark
  let _ ← advance
  match ← advance with
  | some 'n' => return '\n'
  | some 'r' => return '\r'
  | some 't' => return '\t'
  | some '"' => return '"'
  | some '\'' => return '\''
  | some '\\' => return '\\'
  | some 'u' =>
    if (← peek? 0) = some '{' then codePoint m else failFrom m .invalidEscape
  | _ => failFrom m .invalidEscape

/-- Three quotes, with which a string of several lines begins and ends. -/
def tripleQuotes : List Char := ['"', '"', '"']

/-- Reads one more character of a string, or its end. -/
def stringRound (m : Position) (triple : Bool) (value : List Char) :
    Scanning (Round (List Char) (List Char)) := do
  match ← peek? 0 with
  | none => failFrom m .unterminatedString
  | some c =>
    if c = '\n' ∧ triple = false then failFrom m .unterminatedString
    else if c = '"' ∧ triple = false then
      let _ ← advance
      return .done value
    else if ← (if c = '"' then isAhead tripleQuotes else return false) then
      advanceBy 3
      return .done value
    else if c = '\\' then return .again (value ++ [← escape])
    else
      let _ ← advance
      return .again (value ++ [c])

/-- Reads a string from behind the characters `value` on. -/
def stringBody (m : Position) (triple : Bool) (value : List Char) : Scanning Token := do
  let value ← loop left (stringRound m triple) value
  token (.string (String.ofList value)) m

/-- Reads a string. -/
def string (m : Position) : Scanning Token := do
  let triple ← isAhead tripleQuotes
  advanceBy (if triple then 3 else 1)
  stringBody m triple []

/-- Reads the character of a literal. -/
def charValue (m : Position) : Scanning Char := do
  match ← peek? 0 with
  | none => failFrom m .invalidCharacter
  | some c =>
    if c = '\\' then escape
    else if c = '\'' ∨ c = '\n' then failFrom m .invalidCharacter
    else
      let _ ← advance
      return c

/-- Reads a character literal. -/
def char (m : Position) : Scanning Token := do
  let _ ← advance
  let value ← charValue m
  if (← peek? 0) = some '\'' then
    let _ ← advance
    token (.char value.toString) m
  else failFrom m .invalidCharacter

/-- Reads one more character of shader code, or its end. -/
def shaderRound (m : Position) (code : List Char) : Scanning (Round (List Char) (List Char)) := do
  if ← isAhead ['|', ']'] then
    advanceBy 2
    return .done code
  else
    match ← advance with
    | some c => return .again (code ++ [c])
    | none => failFrom m .unterminatedShader

/-- Reads a shader block from behind the characters `code` on. -/
def shaderBody (m : Position) (code : List Char) : Scanning Token := do
  let code ← loop left (shaderRound m) code
  token (.shader (String.ofList code)) m

/-- Reads a shader block. -/
def shader (m : Position) : Scanning Token := do
  advanceBy shaderOpening.length
  shaderBody m []

/-- Reads one more character or mark of a comment, in which `depth` comments are
    open. -/
def commentRound (m : Position) : Int × List Char → Scanning (Round (Int × List Char) (List Char))
  | (depth, text) => do
    if 0 < depth then
      let first ← peek? 0
      let second ← peek? 1
      if first = some '{' ∧ second = some '-' then
        let depth ← check (Checked.signed (depth + 1))
        advanceBy 2
        return .again (depth, text ++ ['{', '-'])
      else if first = some '-' ∧ second = some '}' then
        let depth ← check (Checked.signed (depth - 1))
        advanceBy 2
        return .again (depth, if 0 < depth then text ++ ['-', '}'] else text)
      else
        match first with
        | none => failFrom m .unterminatedComment
        | some c =>
          let _ ← advance
          return .again (depth, text ++ [c])
    else return .done text

/-- Reads the text of a comment up to its end. -/
def commentText (m : Position) : Scanning (List Char) := loop left (commentRound m) (1, [])

/-- Reads a comment in braces. Only documentation is a token. -/
def comment : Scanning (Option Token) := do
  let m ← mark
  advanceBy 2
  if (← peek? 0) = some '|' then
    let _ ← advance
    let text ← commentText m
    return some (← token (.doc (String.ofList text)) m)
  else
    let _ ← commentText m
    return none

/-! ## Tokens -/

/-- Reads the token that starts with the character `c`. -/
def lexToken (c : Char) : Scanning Token := do
  let m ← mark
  if c.isDigit then number m
  else if Text.isAlphabetic c || c == '_' then name m
  else if c = '"' then string m
  else if c = '\'' then char m
  else if ← (if c = '[' then isAhead shaderOpening else return false) then shader m
  else
    match mark? c with
    | some kind =>
      let _ ← advance
      token kind m
    | none => if isSymbol c then operator m else failHere (.unexpected c)

/-- Reads one more piece; a token is the end. -/
def pieceRound (_ : Unit) : Scanning (Round Unit (Option Token)) := do
  match ← peek? 0 with
  | none => return .done none
  | some c =>
    if c = ' ' ∨ c = '\n' ∨ c = '\r' then
      let _ ← advance
      return .again ()
    else if c = '\t' then failHere .tab
    else if c = '-' ∧ (← peek? 1) = some '-' then
      let _ ← takeWhile (· != '\n')
      return .again ()
    else if c = '{' ∧ (← peek? 1) = some '-' then
      match ← comment with
      | some doc => return .done (some doc)
      | none => return .again ()
    else return .done (some (← lexToken c))

/-- Reads the next token, unless there is none. -/
def nextToken : Scanning (Option Token) := loop left pieceRound ()

/-- Reads one more token. -/
def tokenRound (tokens : List Token) : Scanning (Round (List Token) (List Token)) := do
  match ← nextToken with
  | some t => return .again (tokens ++ [t])
  | none => return .done tokens

/-- Reads all tokens and adds the end of the source. -/
def tokenize : Scanning (List Token) := do
  let tokens ← loop left tokenRound []
  let s ← get
  let stop ← check (Checked.narrow (byteSize s.source))
  return tokens ++ [⟨.eof, ⟨stop, stop, s.line.toUInt32, s.column.toUInt32⟩⟩]

end Scanner

end ElmIntake
