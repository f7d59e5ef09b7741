/-! # Shortest decimals

    Many decimals are read back as the same floating point number. The one to
    write has the fewest digits, and of these it is the nearest to the number
    itself. Everything is decided in exact arithmetic on natural numbers. -/

namespace ElmIntake.Decimal

/-- The finite number `mantissa * 2 ^ exponent`. -/
structure Binary where
  mantissa : Nat
  exponent : Int
  /-- Is the next smaller number only half as far away as the next greater
      one? -/
  narrowBelow : Bool
  deriving Repr, DecidableEq

/-- The absolute value of a finite number given by its bits. -/
def Binary.ofBits (bits : UInt64) : Binary :=
  let exponent := ((bits >>> 52) &&& 0x7FF).toNat
  let fraction := (bits &&& 0xFFFFFFFFFFFFF).toNat
  if exponent = 0 then ⟨fraction, -1074, false⟩
  else ⟨Nat.pow 2 52 + fraction, exponent - 1075, fraction == 0 && exponent != 1⟩

/-- The decimal `digits * 10 ^ exponent`. -/
structure Digits where
  digits : Nat
  exponent : Int
  deriving Repr, DecidableEq

/-- The number `quarters * 2 ^ (q - 2)` counted in units of `10 ^ unit`, as a
    numerator and a denominator. -/
def inUnits (quarters : Nat) (q unit : Int) : Nat × Nat :=
  let twos := q - 2
  (quarters * Nat.pow 2 twos.toNat * Nat.pow 10 (-unit).toNat,
    Nat.pow 2 (-twos).toNat * Nat.pow 10 unit.toNat)

/-- Is `count * 10 ^ unit` read back as the number? It is if it lies between the
    middles of the gaps on both sides; the middles belong to the number with the
    even mantissa. -/
def readsBack (x : Binary) (unit : Int) (count : Nat) : Bool :=
  let low := inUnits (4 * x.mantissa - if x.narrowBelow then 1 else 2) x.exponent unit
  let high := inUnits (4 * x.mantissa + 2) x.exponent unit
  let closed := x.mantissa % 2 == 0
  (low.1 < count * low.2 || closed && low.1 == count * low.2) &&
    (count * high.2 < high.1 || closed && high.1 == count * high.2)

/-- The multiple of `10 ^ unit` that is read back as the number and is the
    nearest one, if there is any. Of two that are equally near it is the even
    one. -/
def nearest? (x : Binary) (unit : Int) : Option Nat :=
  let value := inUnits (4 * x.mantissa) x.exponent unit
  let below := value.1 / value.2
  match readsBack x unit below, readsBack x unit (below + 1) with
  | false, false => none
  | true, false => some below
  | false, true => some (below + 1)
  | true, true =>
    let twice := 2 * value.1
    let middle := (2 * below + 1) * value.2
    if twice < middle ∨ twice = middle ∧ below % 2 = 0 then some below else some (below + 1)

/-- How many digits a number has. -/
def digitCount (n : Nat) : Nat := (Nat.toDigits 10 n).length

/-- An exponent for which `10 ^ magnitude` is at least the number and not more
    than a hundred times as great. -/
def magnitude (x : Binary) : Int :=
  let value := inUnits (4 * x.mantissa) x.exponent 0
  (digitCount value.1 : Int) - digitCount value.2 + 1

/-- The first unit, going down from `unit`, that gives a decimal. -/
def search (x : Binary) : Nat → Int → Digits
  | 0, unit => ⟨0, unit⟩
  | tries + 1, unit =>
    match nearest? x unit with
    -- Zero is no decimal of the number, only nearest to it in a unit that is too great.
    | some 0 | none => search x tries (unit - 1)
    | some count => ⟨count, unit⟩

/-- The shortest decimal of a number that is not zero. Any number is found among
    its first seventeen digits. -/
def shortest (x : Binary) : Digits := search x 20 (magnitude x)

end ElmIntake.Decimal
