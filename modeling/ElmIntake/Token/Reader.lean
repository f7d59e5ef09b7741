import ElmIntake.Text.Letter
import ElmIntake.Text.Numeral
import ElmIntake.Token
import ElmIntake.Token.Fault

/-! # Reading tokens

    A reader is given the source from its first character on and cuts it in two:
    the text that it takes, which stands for some value, and the source that is
    left. Readers know nothing of positions. -/

namespace ElmIntake

/-- What a reader makes of a source. -/
structure Cut (α : Type) where
  value : α
  /-- What was read. -/
  text : List Char
  /-- What is left. -/
  rest : List Char
  deriving Repr, DecidableEq

namespace Cut

/-- The source that was cut. -/
def source {α : Type} (c : Cut α) : List Char := c.text ++ c.rest

/-- The cut of a source with more text in front. -/
def after {α : Type} (front : List Char) (c : Cut α) : Cut α := { c with text := front ++ c.text }

@[simp] theorem source_after {α : Type} (front : List Char) (c : Cut α) :
    (c.after front).source = front ++ c.source := List.append_assoc _ _ _

/-- Takes the characters of a class that come first. -/
def ofClass (p : Char → Bool) (cs : List Char) : Cut Unit :=
  ⟨(), cs.takeWhile p, cs.dropWhile p⟩

@[simp] theorem source_ofClass (p : Char → Bool) (cs : List Char) : (ofClass p cs).source = cs :=
  List.takeWhile_append_dropWhile

/-- A cut of the source `cs` that takes at least one character. -/
structure Takes {α : Type} (c : Cut α) (cs : List Char) : Prop where
  source : c.source = cs
  text : c.text ≠ []

/-- What is left is shorter than what was there. -/
theorem Takes.length_lt {α : Type} {c : Cut α} {cs : List Char} (h : c.Takes cs) :
    c.rest.length < cs.length := by
  have := List.length_pos_iff.2 h.text
  have := congrArg List.length h.source
  simp only [Cut.source, List.length_append] at this
  omega

end Cut

/-! ## Character classes -/

/-- Characters that operators are made of. -/
def isSymbol (c : Char) : Bool :=
  c ∈ ['+', '-', '*', '/', '=', '.', '<', '>', ':', '&', '|', '^', '?', '%', '!', '~']

/-- Characters that names are made of. -/
def isNameChar (c : Char) : Bool := Text.isAlphabetic c || Text.isNumeric c || c == '_'

/-- Hexadecimal digits. -/
def isHexDigit (c : Char) : Bool :=
  c.isDigit || ('a' ≤ c && c ≤ 'f') || ('A' ≤ c && c ≤ 'F')

/-- The value of a hexadecimal digit. -/
def hexValue (c : Char) : Nat :=
  if c.isDigit then c.toNat - '0'.toNat
  else if 'a' ≤ c && c ≤ 'f' then c.toNat - 'a'.toNat + 10
  else c.toNat - 'A'.toNat + 10

/-- The character whose code point is written in hexadecimal; none without
    digits, beyond the last code point, and for a surrogate. -/
def charOfHex? (digits : List Char) : Option Char :=
  let n := digits.foldl (fun n d => 16 * n + hexValue d) 0
  if digits.isEmpty then none
  else if n.isValidChar then some (Char.ofNat n)
  else none

/-! ## Names -/

/-- The rest of a name after its first segment: further segments, each after a
    dot. After capitalised segments any letter may start one, later only a
    lower case letter. The value tells whether all segments are capitalised. -/
def readDotted (upper : Bool) : List Char → Cut Bool
  | '.' :: c :: cs =>
    if Text.isAlphabetic c && (upper || Text.isLowercase c) then
      (readDotted (upper && Text.isUppercase c) (cs.dropWhile isNameChar)).after
        ('.' :: c :: cs.takeWhile isNameChar)
    else ⟨upper, [], '.' :: c :: cs⟩
  | cs => ⟨upper, [], cs⟩
termination_by cs => cs.length
decreasing_by
  have := (List.dropWhile_suffix (l := cs) isNameChar).length_le
  simp only [List.length_cons]
  omega

/-- What a name is. -/
def nameKind (upper : Bool) (name : String) : TokenKind :=
  if upper then .upperName name
  else
    match Keyword.ofText? name with
    | some word => .keyword word
    | none => .lowerName name

/-- Reads a name, a keyword or the wildcard. The text of a name is all that is
    read. -/
def readName (cs : List Char) : Cut TokenKind :=
  let first := cs.takeWhile isNameChar
  let rest := cs.dropWhile isNameChar
  if first = ['_'] then ⟨.wildcard, first, rest⟩
  else
    let name := (readDotted (first.head?.any Text.isUppercase) rest).after first
    ⟨nameKind name.value (String.ofList name.text), name.text, name.rest⟩

/-! ## Numbers -/

/-- Reads the fraction of a number, which needs a digit. -/
def readFraction : List Char → Cut Unit
  | '.' :: c :: cs =>
    -- A point without a digit behind it is not part of the number.
    if c.isDigit then (Cut.ofClass Char.isDigit cs).after ['.', c] else ⟨(), [], '.' :: c :: cs⟩
  | cs => ⟨(), [], cs⟩

/-- Reads the exponent of a number, which needs a digit. -/
def readExponent : List Char → Cut Unit
  | e :: s :: cs =>
    if e == 'e' || e == 'E' then
      if s.isDigit then (Cut.ofClass Char.isDigit cs).after [e, s]
      else if s == '+' || s == '-' then
        -- The sign is taken only together with a digit.
        match cs with
        | d :: ds =>
          if d.isDigit then (Cut.ofClass Char.isDigit ds).after [e, s, d]
          else ⟨(), [], e :: s :: d :: ds⟩
        | [] => ⟨(), [], [e, s]⟩
      else ⟨(), [], e :: s :: cs⟩
    else ⟨(), [], e :: s :: cs⟩
  | cs => ⟨(), [], cs⟩

/-- Ends a number: no name may follow it directly. -/
def endNumber (digits text rest : List Char) : Except LexFault (Cut TokenKind) :=
  if rest.head?.any isNameChar then .error (.here .nameAfterNumber rest)
  else .ok ⟨.number (String.ofList digits), text, rest⟩

/-- Reads the digits of a hexadecimal number after the letter `x`. -/
def readHexNumber (x : Char) (cs : List Char) : Except LexFault (Cut TokenKind) :=
  let digits := cs.takeWhile isHexDigit
  let rest := cs.dropWhile isHexDigit
  if digits.isEmpty then .error (.here .missingHexDigits rest)
  else endNumber ('0' :: 'x' :: digits) ('0' :: x :: digits) rest

/-- Reads a number that is not hexadecimal. Its text is all that is read. -/
def readDecimal (cs : List Char) : Except LexFault (Cut TokenKind) :=
  let fraction := readFraction (cs.dropWhile Char.isDigit)
  let exponent := readExponent fraction.rest
  let text := cs.takeWhile Char.isDigit ++ (fraction.text ++ exponent.text)
  endNumber text text exponent.rest

/-- Reads a number. The text of a hexadecimal one begins with a small `x`
    whichever stands in the source. -/
def readNumber : List Char → Except LexFault (Cut TokenKind)
  | '0' :: 'x' :: cs => readHexNumber 'x' cs
  | '0' :: 'X' :: cs => readHexNumber 'X' cs
  | cs => readDecimal cs

/-! ## Strings, characters, shaders and comments -/

/-- Reads a code point in braces, given the source after the opening brace. -/
def readCodePoint (cs : List Char) : Except LexFault (Cut Char) :=
  match cs.dropWhile isHexDigit with
  | '}' :: rest =>
    match charOfHex? (cs.takeWhile isHexDigit) with
    | some c => .ok ⟨c, cs.takeWhile isHexDigit ++ ['}'], rest⟩
    | none => .error ⟨.invalidUnicodeEscape, '\\' :: 'u' :: '{' :: cs, rest⟩
  | rest => .error ⟨.invalidUnicodeEscape, '\\' :: 'u' :: '{' :: cs, rest⟩

/-- Reads an escape whose backslash has just been read. -/
def readEscape : List Char → Except LexFault (Cut Char)
  | 'n' :: rest => .ok ⟨'\n', ['n'], rest⟩
  | 'r' :: rest => .ok ⟨'\r', ['r'], rest⟩
  | 't' :: rest => .ok ⟨'\t', ['t'], rest⟩
  | '"' :: rest => .ok ⟨'"', ['"'], rest⟩
  | '\'' :: rest => .ok ⟨'\'', ['\''], rest⟩
  | '\\' :: rest => .ok ⟨'\\', ['\\'], rest⟩
  | 'u' :: '{' :: rest => (readCodePoint rest).map (·.after ['u', '{'])
  | c :: rest => .error ⟨.invalidEscape, '\\' :: c :: rest, rest⟩
  | [] => .error ⟨.invalidEscape, ['\\'], []⟩

theorem readCodePoint_takes {cs : List Char} {c : Cut Char} (h : readCodePoint cs = .ok c) :
    c.Takes cs := by
  unfold readCodePoint at h
  have split := List.takeWhile_append_dropWhile (p := isHexDigit) (l := cs)
  split at h
  · next heq =>
    rw [heq] at split
    split at h
    · cases h
      exact ⟨by simpa [Cut.source] using split, by simp⟩
    · cases h
  · cases h

/-- An escape takes at least one character. -/
theorem readEscape_takes {cs : List Char} {c : Cut Char} (h : readEscape cs = .ok c) :
    c.Takes cs := by
  unfold readEscape at h
  split at h
  case h_7 rest =>
    cases eq : readCodePoint rest with
    | error => simp [eq, Except.map] at h
    | ok d =>
      simp only [eq, Except.map] at h
      cases h
      exact ⟨by rw [Cut.source_after, (readCodePoint_takes eq).source]; rfl, by simp [Cut.after]⟩
  all_goals cases h
  all_goals exact ⟨rfl, by simp⟩

/-- Reads a string up to its closing quotes, three of them if `triple`. Without
    it the string must end on its line. `opening` is the source from the opening
    quotes on, `read` the characters so far and `seen` all that was read, both
    with the last one first. -/
def readStringBody (opening : List Char) (triple : Bool) (read seen : List Char) :
    List Char → Except LexFault (Cut TokenKind)
  | [] => .error ⟨.unterminatedString, opening, []⟩
  | c :: cs =>
    if c = '\\' then
      match _h : readEscape cs with
      | .ok e =>
        readStringBody opening triple (e.value :: read) (e.text.reverse ++ c :: seen) e.rest
      | .error fault => .error fault
    else if triple then
      -- One or two quotes are part of such a string, and so are line feeds.
      if c = '"' ∧ ['"', '"'] <+: cs then
        .ok ⟨.string (String.ofList read.reverse), seen.reverse ++ ['"', '"', '"'], cs.drop 2⟩
      else readStringBody opening triple (c :: read) (c :: seen) cs
    else if c = '\n' then .error ⟨.unterminatedString, opening, c :: cs⟩
    else if c = '"' then .ok ⟨.string (String.ofList read.reverse), seen.reverse ++ ['"'], cs⟩
    else readStringBody opening triple (c :: read) (c :: seen) cs
termination_by cs => cs.length
decreasing_by
  · have := (readEscape_takes ‹_›).length_lt
    simp only [List.length_cons]
    omega
  all_goals simp

/-- Reads a string literal after its first quote. It starts with one or three
    quotes. -/
def readString : List Char → Except LexFault (Cut TokenKind)
  | '"' :: '"' :: cs => readStringBody ('"' :: '"' :: '"' :: cs) true [] ['"', '"', '"'] cs
  | cs => readStringBody ('"' :: cs) false [] ['"'] cs

/-- Reads the closing quote of a character literal, of which `seen` has been
    read. -/
def endChar (opening : List Char) (c : Char) (seen : List Char) :
    List Char → Except LexFault (Cut TokenKind)
  | '\'' :: rest => .ok ⟨.char c.toString, seen ++ ['\''], rest⟩
  | rest => .error ⟨.invalidCharacter, opening, rest⟩

/-- Reads a character literal whose opening quote has just been read. -/
def readChar (cs : List Char) : Except LexFault (Cut TokenKind) :=
  let opening := '\'' :: cs
  match cs with
  | '\\' :: rest =>
    match readEscape rest with
    | .ok e => endChar opening e.value ('\'' :: '\\' :: e.text) e.rest
    | .error fault => .error fault
  | c :: rest =>
    if c = '\'' ∨ c = '\n' then .error ⟨.invalidCharacter, opening, cs⟩
    else endChar opening c ['\'', c] rest
  | [] => .error ⟨.invalidCharacter, opening, cs⟩

/-- Reads the code of a shader block up to its end, which is not part of the
    text; `seen` was read before, last one first. -/
def readCode (seen : List Char) : List Char → Option (Cut Unit)
  | '|' :: ']' :: rest => some ⟨(), seen.reverse, rest⟩
  | c :: cs => readCode (c :: seen) cs
  | [] => none

/-- Reads a comment that stands inside `depth` others up to its end, which is not
    part of the text; `seen` was read before, last one first. Comments nest. -/
def readNested (seen : List Char) : (depth : Nat) → List Char → Option (Cut Unit)
  | depth, '{' :: '-' :: cs => readNested ('-' :: '{' :: seen) (depth + 1) cs
  | 0, '-' :: '}' :: rest => some ⟨(), seen.reverse, rest⟩
  | depth + 1, '-' :: '}' :: cs => readNested ('}' :: '-' :: seen) depth cs
  | depth, c :: cs => readNested (c :: seen) depth cs
  | _, [] => none

/-- The mark that a shader block begins with. -/
def shaderOpening : List Char := ['[', 'g', 'l', 's', 'l', '|']

/-- Reads a shader block after its opening mark. -/
def readShader (cs : List Char) : Except LexFault (Cut TokenKind) :=
  match readCode [] cs with
  | some code =>
    .ok ⟨.shader (String.ofList code.text), shaderOpening ++ code.text ++ ['|', ']'], code.rest⟩
  | none => .error ⟨.unterminatedShader, shaderOpening ++ cs, []⟩

/-- Reads a comment after its opening mark. -/
def readPlainComment (cs : List Char) : Except LexFault (Cut (Option TokenKind)) :=
  match readNested [] 0 cs with
  | some inner => .ok ⟨none, '{' :: '-' :: inner.text ++ ['-', '}'], inner.rest⟩
  | none => .error ⟨.unterminatedComment, '{' :: '-' :: cs, []⟩

/-- Reads a documentation comment, which is a token, after its opening mark. -/
def readDocComment (cs : List Char) : Except LexFault (Cut (Option TokenKind)) :=
  match readNested [] 0 cs with
  | some inner =>
    .ok ⟨some (.doc (String.ofList inner.text)), '{' :: '-' :: '|' :: inner.text ++ ['-', '}'],
      inner.rest⟩
  | none => .error ⟨.unterminatedComment, '{' :: '-' :: '|' :: cs, []⟩

/-! ## Operators -/

/-- The token that a run of symbols is. -/
def symbolKind (symbols : List Char) : TokenKind :=
  if symbols = ['='] then .equals
  else if symbols = [':'] then .colon
  else if symbols = ['|'] then .pipe
  else if symbols = ['-', '>'] then .arrow
  else .operator (String.ofList symbols)

/-! ## Tokens and what stands between them -/

/-- The tokens that are a single character whatever follows. A square bracket
    is one unless it opens a shader block. -/
def mark? (c : Char) : Option TokenKind :=
  if c = '(' then some (.opening .paren)
  else if c = '[' then some (.opening .square)
  else if c = '{' then some (.opening .brace)
  else if c = ')' then some (.closing .paren)
  else if c = ']' then some (.closing .square)
  else if c = '}' then some (.closing .brace)
  else if c = ',' then some .comma
  else if c = '\\' then some .backslash
  else none

/-- Reads an operator or a single mark. -/
def readMark (c : Char) (cs : List Char) : Except LexFault (Cut TokenKind) :=
  match mark? c with
  | some kind => .ok ⟨kind, [c], cs⟩
  | none =>
    if isSymbol c then
      let symbols := c :: cs.takeWhile isSymbol
      .ok ⟨symbolKind symbols, symbols, cs.dropWhile isSymbol⟩
    else .error (.here (.unexpected c) (c :: cs))

/-- Reads the token that starts with the character `c`. -/
def readToken (c : Char) (cs : List Char) : Except LexFault (Cut TokenKind) :=
  if c.isDigit then readNumber (c :: cs)
  else if Text.isAlphabetic c || c == '_' then .ok (readName (c :: cs))
  else if c = '"' then readString cs
  else if c = '\'' then readChar cs
  else
    match c, cs with
    | '[', 'g' :: 'l' :: 's' :: 'l' :: '|' :: cs => readShader cs
    | c, cs => readMark c cs

/-- Reads the piece that starts with the character `c`: a single blank, a
    comment up to its end, or a token. Only a token has a kind. -/
def readPiece (c : Char) (cs : List Char) : Except LexFault (Cut (Option TokenKind)) :=
  if c = ' ' ∨ c = '\n' ∨ c = '\r' then .ok ⟨none, [c], cs⟩
  else if c = '\t' then .error (.here .tab (c :: cs))
  else
    match c, cs with
    -- The line feed that ends a line comment is not part of it.
    | '-', '-' :: cs =>
      .ok ⟨none, '-' :: '-' :: cs.takeWhile (· != '\n'), cs.dropWhile (· != '\n')⟩
    | '{', '-' :: '|' :: cs => readDocComment cs
    | '{', '-' :: cs => readPlainComment cs
    | c, cs => (readToken c cs).map fun token => ⟨some token.value, token.text, token.rest⟩

end ElmIntake
