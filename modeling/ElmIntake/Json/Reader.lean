import ElmIntake.Json.Fault
import ElmIntake.Text.Utf8

/-! # Reading JSON

    A reader goes through the bytes of a document from left to right. What has
    been read stays read when it fails, because the place of a fault is
    sometimes that where its surroundings end. -/

namespace ElmIntake.Json

/-- What is still to be read, and the place reached. -/
structure Cursor where
  rest : Bytes
  line : Nat
  column : Nat
  /-- The length of the whole document. Nothing in it can be repeated more often. -/
  size : Nat
  deriving Repr, DecidableEq

namespace Cursor

/-- At the beginning of a document. -/
def start (document : Bytes) : Cursor := ⟨document, 1, 0, document.length⟩

/-- The cursor behind the next byte, if there is one. -/
def next (c : Cursor) : Cursor :=
  match c.rest with
  | [] => c
  | b :: rest =>
    if b = 10 then { c with rest, line := c.line + 1, column := 0 }
    else { c with rest, column := c.column + 1 }

/-- The cursor behind the next `n` bytes. -/
def skip (c : Cursor) : Nat → Cursor
  | 0 => c
  | n + 1 => c.next.skip n

/-- A problem at the place reached. -/
def fault (c : Cursor) (problem : Problem) : Fault := ⟨problem, c.line, c.column⟩

end Cursor

/-- A reader of values of a type. -/
abbrev Reader (α : Type) := ExceptT Fault (StateM Cursor) α

namespace Reader

/-- Runs a reader on a whole document. -/
def onDocument {α : Type} (r : Reader α) (document : Bytes) : Except Fault α :=
  (r.run (.start document)).1

/-! ## Bytes -/

/-- The byte of an ASCII character. -/
def byte (c : Char) : UInt8 := c.toNat.toUInt8

/-- The next byte. -/
def peek? : Reader (Option UInt8) := do return (← get).rest.head?

/-- Does the character come next? -/
def isAhead (c : Char) : Reader Bool := do return (← peek?) == some (byte c)

/-- Goes over the next byte. -/
def skip : Reader Unit := modify Cursor.next

/-- Reads the next byte. -/
def next? : Reader (Option UInt8) := do
  let b ← peek?
  skip
  return b

/-- A bound for repetitions: more than there are bytes to be read. -/
def bound : Reader Nat := do return (← get).size + 1

/-! ## Failing -/

/-- Fails at the place reached. -/
def failHere {α : Type} (problem : Problem) : Reader α := do throw ((← get).fault problem)

/-- Fails at the next byte. -/
def failAhead {α : Type} (problem : Problem) : Reader α := do throw ((← get).next.fault problem)

/-! ## Blanks, words and digits -/

/-- Is the byte a blank between tokens? -/
def isBlank (b : UInt8) : Bool := b == 32 || b == 10 || b == 9 || b == 13

/-- Goes over all bytes of a class that come next, and says how many they
    were. -/
def skipAll (p : UInt8 → Bool) : Reader Nat := do
  let c ← get
  let n := (c.rest.takeWhile p).length
  set (c.skip n)
  return n

/-- The next byte that is no blank. -/
def peekToken? : Reader (Option UInt8) := do
  let _ ← skipAll isBlank
  peek?

/-- Goes over the rest of a word whose first letter decided what it is. -/
def expectWord : List Char → Reader Unit
  | [] => return ()
  | c :: cs => do
    match ← next? with
    | none => failHere .endInValue
    | some b => if b = byte c then expectWord cs else failHere .expectedWord

/-- Is the byte a decimal digit? -/
def isDigit (b : UInt8) : Bool := 48 ≤ b && b ≤ 57

/-- The value of a decimal digit. -/
def digitValue (b : UInt8) : Nat := b.toNat - 48

/-! ## Strings -/

/-- The value of a hexadecimal digit. -/
def hexValue? (b : UInt8) : Option Nat :=
  if isDigit b then some (digitValue b)
  else if 97 ≤ b && b ≤ 102 then some (b.toNat - 87)
  else if 65 ≤ b && b ≤ 70 then some (b.toNat - 55)
  else none

/-- Reads four hexadecimal digits. -/
def hexEscape : Reader Nat := do
  let c ← get
  match c.rest with
  | b₁ :: b₂ :: b₃ :: b₄ :: _ =>
    set (c.skip 4)
    match hexValue? b₁, hexValue? b₂, hexValue? b₃, hexValue? b₄ with
    | some d₁, some d₂, some d₃, some d₄ => return ((d₁ * 16 + d₂) * 16 + d₃) * 16 + d₄
    | _, _, _, _ => failHere .invalidEscape
  | rest =>
    set (c.skip rest.length)
    failHere .endInString

/-- Goes over the next byte of an escape, which has to be the given one. -/
def expectInEscape (c : Char) : Reader Unit := do
  match ← next? with
  | none => failHere .endInString
  | some b => if b = byte c then return () else failHere .endOfEscape

/-- Reads the code point of an escape after its `u`. One outside of the first
    plane is written as a pair of surrogates. -/
def codePoint : Reader Nat := do
  let n ← hexEscape
  -- The second half of a pair cannot come first.
  if 0xDC00 ≤ n ∧ n ≤ 0xDFFF then failHere .unpairedSurrogate
  else if n < 0xD800 ∨ 0xDBFF < n then return n
  else
    expectInEscape '\\'
    expectInEscape 'u'
    let m ← hexEscape
    if m < 0xDC00 ∨ 0xDFFF < m then failHere .unpairedSurrogate
    else return (n - 0xD800) * 0x400 + (m - 0xDC00) + 0x10000

/-- The byte that an escape of one character stands for. -/
def simpleEscape? (b : UInt8) : Option UInt8 :=
  if b = byte '"' then some b
  else if b = byte '\\' then some b
  else if b = byte '/' then some b
  else if b = byte 'b' then some 8
  else if b = byte 'f' then some 12
  else if b = byte 'n' then some 10
  else if b = byte 'r' then some 13
  else if b = byte 't' then some 9
  else none

/-- Reads an escape after its backslash. -/
def escape : Reader Bytes := do
  match ← next? with
  | none => failHere .endInString
  | some b =>
    match simpleEscape? b with
    | some e => return [e]
    | none =>
      if b = byte 'u' then
        return Text.toUtf8 (String.singleton (Char.ofNat (← codePoint)))
      else failHere .invalidEscape

/-- Goes over an escape after its backslash; surrogates need not be paired. -/
def skipEscape : Reader Unit := do
  match ← next? with
  | none => failHere .endInString
  | some b =>
    if (simpleEscape? b).isSome then return ()
    else if b = byte 'u' then
      let _ ← hexEscape
      return ()
    else failHere .invalidEscape

/-- May the byte stand in a string as it is? -/
def isPlain (b : UInt8) : Bool := 32 ≤ b && b != byte '"' && b != byte '\\'

/-- Reads a string after its opening quote, up to the closing one. `before` are
    the stretches already read, last one first; there are at most `fuel` more of
    them. -/
def stringBytes : Nat → List Bytes → Reader Bytes
  | 0, _ => failHere .endInString
  | fuel + 1, before => do
    let c ← get
    let plain := c.rest.takeWhile isPlain
    set (c.skip plain.length)
    match ← peek? with
    | none => failHere .endInString
    | some b =>
      if b = byte '"' then return (plain :: before).reverse.flatten
      else
        skip
        if b = byte '\\' then
          let e ← escape
          stringBytes fuel (e :: plain :: before)
        else failHere .controlCharacter

/-- Fails because the bytes of the string that has just been read, with its
    closing quote, are not UTF-8. The place of the fault is counted back from the
    place reached, over the bytes of the string from the bad one on. So it is that
    of the bad byte, unless an escape follows in the string: an escape takes more
    bytes in the document than the text that it stands for. -/
def failInString {α : Type} (bytes : Bytes) (bad : Text.Utf8Fault) : Reader α := do
  let c ← get
  throw ⟨.invalidCodePoint, c.line, c.column - (bytes.length - bad.index)⟩

/-- Reads a string after its opening quote. -/
def stringText : Reader String := do
  let bytes ← stringBytes (← bound) []
  skip
  match Text.ofUtf8 bytes with
  | .ok s => return s
  | .error bad => failInString bytes bad

/-- Goes over a string after its opening quote, in at most `fuel` stretches. Its
    bytes need not be UTF-8. -/
def skipStretches : Nat → Reader Unit
  | 0 => failHere .endInString
  | fuel + 1 => do
    let _ ← skipAll isPlain
    match ← peek? with
    | none => failHere .endInString
    | some b =>
      if b = byte '"' then skip
      else if b = byte '\\' then
        skip
        skipEscape
        skipStretches fuel
      else failHere .controlCharacter

/-- Goes over a string after its opening quote. -/
def skipString : Reader Unit := do skipStretches (← bound)

end Reader

end ElmIntake.Json
