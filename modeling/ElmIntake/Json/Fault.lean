import ElmIntake.Decimal.Shortest
import ElmIntake.Text.Quoted

/-! # Faults in JSON documents

    What can be wrong with a JSON document, or with what it says, and where.
    Lines count from 1; a column counts the bytes of its line that were read,
    so it is 0 right after a line feed. -/

namespace ElmIntake.Json

/-! ## What was found -/

/-- Written form of a floating point number: its shortest decimal, positional if
    the point lies among the first sixteen digits or up to five zeros before
    them, and with an exponent otherwise. -/
def floatText (x : Float) : String :=
  let bits := x.toBits
  let sign := if bits >>> 63 = 0 then "" else "-"
  let absolute := Decimal.Binary.ofBits (bits &&& 0x7FFFFFFFFFFFFFFF)
  if absolute.mantissa = 0 then sign ++ "0.0"
  else
    let ⟨digits, exponent⟩ := Decimal.shortest absolute
    let ds := Nat.toDigits 10 digits
    let zeros (n : Int) : List Char := List.replicate n.toNat '0'
    let point : Int := ds.length + exponent
    let text : List Char :=
      if 0 ≤ exponent ∧ point ≤ 16 then ds ++ zeros exponent ++ ['.', '0']
      else if 0 < point ∧ point ≤ 16 then ds.take point.toNat ++ '.' :: ds.drop point.toNat
      else if -5 < point ∧ point ≤ 0 then ['0', '.'] ++ zeros (-point) ++ ds
      else
        let fraction := if ds.length = 1 then [] else '.' :: ds.drop 1
        let signed := if 1 ≤ point then ['+'] else ['-']
        ds.take 1 ++ fraction ++ 'e' :: signed ++ Nat.toDigits 10 (point - 1).natAbs
    sign ++ String.ofList text

/-- A number, which is a floating point number unless it is an integer that fits
    into 64 bits. -/
inductive Number where
  | natural (n : Nat)
  | negative (n : Int)
  | float (x : Float)
  deriving Repr, Inhabited

/-- A value of a kind that was not expected. -/
inductive Unexpected where
  | null
  | bool (b : Bool)
  | number (n : Number)
  | text (s : String)
  | list
  | object
  deriving Repr, Inhabited

/-- How the value is called in a message. -/
def Unexpected.description : Unexpected → String
  | null => "null"
  | bool b => s!"boolean `{b}`"
  | number (.natural n) => s!"integer `{n}`"
  | number (.negative n) => s!"integer `{n}`"
  | number (.float x) => s!"floating point `{floatText x}`"
  | text s => s!"string {Text.quote s}"
  | list => "sequence"
  | object => "map"

/-! ## Problems -/

/-- What is wrong. -/
inductive Problem where
  | endInValue
  | endInList
  | endInObject
  | endInString
  | expectedColon
  | expectedListEnd
  | expectedObjectEnd
  | expectedWord
  | expectedValue
  | keyIsNoString
  | trailingComma
  | trailingCharacters
  | controlCharacter
  | invalidEscape
  | invalidNumber
  | numberOutOfRange
  | invalidCodePoint
  | unpairedSurrogate
  | endOfEscape
  /-- A value of the wrong kind. -/
  | wrongType (found : Unexpected) (expected : String)
  /-- A number out of the range of what was expected. -/
  | wrongValue (found : Unexpected) (expected : String)
  /-- A list with too few elements. -/
  | wrongLength (found : Nat) (expected : String)
  | unknownVariant (found : String) (expected : String)
  | missingField (name : String)
  | duplicateField (name : String)
  deriving Repr, Inhabited

/-- The wording of a problem. -/
def Problem.message : Problem → String
  | endInValue => "EOF while parsing a value"
  | endInList => "EOF while parsing a list"
  | endInObject => "EOF while parsing an object"
  | endInString => "EOF while parsing a string"
  | expectedColon => "expected `:`"
  | expectedListEnd => "expected `,` or `]`"
  | expectedObjectEnd => "expected `,` or `\x7d`"
  | expectedWord => "expected ident"
  | expectedValue => "expected value"
  | keyIsNoString => "key must be a string"
  | trailingComma => "trailing comma"
  | trailingCharacters => "trailing characters"
  | controlCharacter =>
    "control character (\\u0000-\\u001F) found while parsing a string"
  | invalidEscape => "invalid escape"
  | invalidNumber => "invalid number"
  | numberOutOfRange => "number out of range"
  | invalidCodePoint => "invalid unicode code point"
  | unpairedSurrogate => "lone leading surrogate in hex escape"
  | endOfEscape => "unexpected end of hex escape"
  | wrongType found expected => s!"invalid type: {found.description}, expected {expected}"
  | wrongValue found expected => s!"invalid value: {found.description}, expected {expected}"
  | wrongLength found expected => s!"invalid length {found}, expected {expected}"
  | unknownVariant found expected => s!"unknown variant `{found}`, expected {expected}"
  | missingField name => s!"missing field `{name}`"
  | duplicateField name => s!"duplicate field `{name}`"

/-- A problem and its place. -/
structure Fault where
  problem : Problem
  line : Nat
  column : Nat
  deriving Repr, Inhabited

/-- Printed form of a fault. -/
protected def Fault.toString (f : Fault) : String :=
  s!"{f.problem.message} at line {f.line} column {f.column}"

instance : ToString Fault := ⟨Fault.toString⟩

end ElmIntake.Json
