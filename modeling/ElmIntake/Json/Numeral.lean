import ElmIntake.Json.Reader

/-! # JSON numbers

    A number without point and exponent is an integer as long as it fits into
    64 bits. Every other one is a floating point number: its first digits, as
    many as fit into 64 bits, are taken as an integer and multiplied or divided
    by a power of ten. -/

namespace ElmIntake.Json

namespace Number

/-- The greatest natural number of 64 bits. -/
def maxNatural : Nat := UInt64.size - 1

/-- The greatest exponent that is told from greater ones. -/
def maxExponent : Nat := Nat.pow 2 31 - 1

/-- A power of ten, up to the 308th. -/
def powerOfTen (n : Nat) : Float := Float.ofScientific 1 false n

/-- Divides by a power of ten, in steps that are powers of ten themselves. -/
def divideByPower (x : Float) (n : Nat) : Float :=
  if n ≤ 308 then x / powerOfTen n
  else if x == 0 then x
  else divideByPower (x / powerOfTen 308) (n - 308)
termination_by n

/-- The number `digits * 10 ^ exponent`, unless it is too great. -/
def scale? (digits : Nat) (exponent : Int) : Option Float :=
  let x := digits.toUInt64.toFloat
  if exponent < 0 then some (divideByPower x exponent.natAbs)
  else if exponent ≤ 308 then
    let y := x * powerOfTen exponent.toNat
    if y.isInf then none else some y
  else if x == 0 then some x
  else none

/-- The integer with the given sign and digits. A zero with a minus sign is a
    floating point number. -/
def ofInteger (isNegative : Bool) (digits : Nat) : Number :=
  if !isNegative then natural digits
  else if digits = 0 ∨ Nat.pow 2 63 < digits then float (-digits.toUInt64.toFloat)
  else negative (-digits)

/-- The number with the given sign and absolute value. -/
def ofFloat (isNegative : Bool) (x : Float) : Number := float (if isNegative then -x else x)

end Number

namespace Reader

open Number

/-! ## Reading numbers -/

/-- Does an exponent come next? -/
def isExponentAhead : Reader Bool := do return (← isAhead 'e') || (← isAhead 'E')

/-- The digits that come next, as far as `value` with them does not exceed
    `limit`, and how many they are. -/
def takeDigits (limit : Nat) (value : Nat) : Bytes → Nat × Nat
  | [] => (value, 0)
  | b :: bytes =>
    if isDigit b && value * 10 + digitValue b ≤ limit then
      let (value, count) := takeDigits limit (value * 10 + digitValue b) bytes
      (value, count + 1)
    else (value, 0)

/-- Reads digits as far as `value` with them does not exceed `limit`. -/
def digitsUpTo (limit value : Nat) : Reader (Nat × Nat) := do
  let c ← get
  let (value, count) := takeDigits limit value c.rest
  set (c.skip count)
  return (value, count)

/-- The number read, unless it is too great. -/
def scaled (isNegative : Bool) (digits : Nat) (exponent : Int) : Reader Number := do
  match scale? digits exponent with
  | some x => return ofFloat isNegative x
  | none => failHere .numberOutOfRange

/-- Reads the sign of an exponent: is there a minus? -/
def exponentSign : Reader Bool := do
  if ← isAhead '+' then
    skip
    return false
  else if ← isAhead '-' then
    skip
    return true
  else return false

/-- Reads an exponent and so ends the number. -/
def exponent (isNegative : Bool) (digits : Nat) (shift : Int) : Reader Number := do
  skip
  let isSmall ← exponentSign
  match ← next? with
  | none => failHere .endInValue
  | some b =>
    if !isDigit b then failHere .invalidNumber
    else
      let (e, _) ← digitsUpTo maxExponent (digitValue b)
      match ← peek? with
      | some b =>
        if isDigit b then
          skip
          -- The exponent is out of all bounds: the number is too great, or zero.
          if digits ≠ 0 ∧ !isSmall then failHere .numberOutOfRange
          else
            let _ ← skipAll isDigit
            return ofFloat isNegative 0
        else scaled isNegative digits (if isSmall then shift - e else shift + e)
      | none => scaled isNegative digits (if isSmall then shift - e else shift + e)

/-- Reads what can follow the digits, if there is an exponent, and so ends the
    number. -/
def exponentOrEnd (isNegative : Bool) (digits : Nat) (shift : Int) : Reader Number := do
  if ← isExponentAhead then exponent isNegative digits shift
  else scaled isNegative digits shift

/-- Reads a fraction from its point on and so ends the number. Digits that do
    not fit any more do not count. -/
def fraction (isNegative : Bool) (digits : Nat) (shift : Int) : Reader Number := do
  skip
  let (digits, count) ← digitsUpTo maxNatural digits
  let ignored ← skipAll isDigit
  if count = 0 ∧ ignored = 0 then
    match ← peek? with
    | some _ => failAhead .invalidNumber
    | none => failAhead .endInValue
  else exponentOrEnd isNegative digits (shift - count)

/-- Reads the rest of an integer with more digits than fit, and so ends the
    number. -/
def longInteger (isNegative : Bool) (digits : Nat) : Reader Number := do
  let ignored ← skipAll isDigit
  if ← isAhead '.' then fraction isNegative digits ignored
  else exponentOrEnd isNegative digits ignored

/-- Reads what can follow an integer, and so ends the number. -/
def afterInteger (isNegative : Bool) (digits : Nat) : Reader Number := do
  if ← isAhead '.' then fraction isNegative digits 0
  else if ← isExponentAhead then exponent isNegative digits 0
  else return ofInteger isNegative digits

/-- Reads a number without its sign. -/
def unsigned (isNegative : Bool) : Reader Number := do
  match ← next? with
  | none => failHere .endInValue
  | some b =>
    -- No digit may follow a zero at the beginning.
    if b = byte '0' then
      match ← peek? with
      | some d => if isDigit d then failAhead .invalidNumber else afterInteger isNegative 0
      | none => afterInteger isNegative 0
    else if isDigit b then
      let (digits, _) ← digitsUpTo maxNatural (digitValue b)
      match ← peek? with
      | some d =>
        if isDigit d then longInteger isNegative digits else afterInteger isNegative digits
      | none => afterInteger isNegative digits
    else failHere .invalidNumber

/-- Reads a number. -/
def number : Reader Number := do
  if ← isAhead '-' then
    skip
    unsigned true
  else unsigned false

/-! ## Going over numbers -/

/-- Goes over an exponent. -/
def skipExponent : Reader Unit := do
  skip
  let _ ← exponentSign
  match ← next? with
  | some b => if isDigit b then let _ ← skipAll isDigit else failHere .invalidNumber
  | none => failHere .invalidNumber

/-- Goes over a number, which may be of any size. -/
def skipNumber : Reader Unit := do
  if ← isAhead '-' then skip
  match ← next? with
  | none => failHere .invalidNumber
  | some b =>
    if b = byte '0' then
      match ← peek? with
      | some d => if isDigit d then failAhead .invalidNumber
      | none => pure ()
    else if isDigit b then
      let _ ← skipAll isDigit
    else failHere .invalidNumber
    if ← isAhead '.' then
      skip
      if (← skipAll isDigit) = 0 then failAhead .invalidNumber
    if ← isExponentAhead then skipExponent

end Reader

end ElmIntake.Json
