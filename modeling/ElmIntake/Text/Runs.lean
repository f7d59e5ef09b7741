/-! # Character properties as runs of code points

    A property of characters is stored as a list of **runs**: code points
    from a first to a last one, every one of them or every second one (upper
    and lower case letters alternate in many scripts).

    A property is given here by two parts: a rule for ASCII, which can be read
    off and evaluated, and a table for all other characters. -/

namespace ElmIntake.Text

/-- Code points `first`, `first + step`, … up to `last`. -/
structure Run where
  first : Nat
  last : Nat
  step : Nat
  deriving Repr, DecidableEq

/-- Does the code point `n` belong to the run? -/
def Run.contains (r : Run) (n : Nat) : Bool :=
  r.first ≤ n && n ≤ r.last && (n - r.first) % r.step == 0

/-- Does `c` have the property that holds of ASCII characters as `ascii` says
    and of all others as the table `runs` says? -/
def hasProperty (ascii : Char → Bool) (runs : List Run) (c : Char) : Bool :=
  if c.toNat < 128 then ascii c else runs.any (·.contains c.toNat)

/-- On ASCII the table is not consulted. -/
theorem hasProperty_of_ascii (ascii : Char → Bool) (runs : List Run) {c : Char}
    (h : c.toNat < 128) : hasProperty ascii runs c = ascii c := by
  simp [hasProperty, h]

end ElmIntake.Text
