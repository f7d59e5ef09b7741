/-! # Patterns of paths

    A **pattern** is a text with wildcards: `?` for any character, `*` for any
    stretch, `**` as a whole component for any components, and `[ab-c]` or
    `[!ab-c]` for a character of a set or of none. Slashes are characters like
    others, and the case of ASCII letters does not matter. -/

namespace ElmIntake

/-! ## Sets of characters -/

/-- A part of a set of characters. -/
inductive CharRange where
  | single (c : Char)
  | between (low high : Char)
  deriving Repr, DecidableEq

namespace CharRange

/-- Is the character an ASCII letter? -/
def isLetter (c : Char) : Bool := 'a' ≤ c.toLower && c.toLower ≤ 'z'

/-- Is the character in the range? The case of letters does not matter if both
    ends of the range are letters. -/
def contains (c : Char) : CharRange → Bool
  | single d => c.toLower == d.toLower
  | between low high =>
    (low ≤ c && c ≤ high) ||
      (isLetter low && isLetter high && low.toLower ≤ c.toLower && c.toLower ≤ high.toLower)

/-- The ranges that a text between brackets stands for. -/
def ofText : List Char → List CharRange
  | a :: '-' :: b :: cs => between a b :: ofText cs
  | c :: cs => single c :: ofText cs
  | [] => []

end CharRange

/-! ## Patterns -/

/-- A part of a pattern. -/
inductive Wildcard where
  | literal (c : Char)
  | anyChar
  | oneOf (ranges : List CharRange)
  | noneOf (ranges : List CharRange)
  /-- Any stretch of characters. -/
  | anyStretch
  /-- Nothing, or any stretch up to a slash. -/
  | anyComponents
  deriving Repr, DecidableEq

/-- A pattern as a list of its parts. -/
structure Pattern where
  parts : List Wildcard
  deriving Repr, DecidableEq

namespace Pattern

/-- The text between brackets, the first character of which may be the closing
    bracket, and what follows. -/
def takeSet : List Char → Option (List Char × List Char)
  | [] => none
  | c :: cs =>
    match cs.dropWhile (· != ']') with
    | _ :: rest => some (c :: cs.takeWhile (· != ']'), rest)
    | [] => none

theorem takeSet_length {cs set rest : List Char} (h : takeSet cs = some (set, rest)) :
    rest.length < cs.length := by
  cases cs with
  | nil => cases h
  | cons c cs =>
    have hle := (List.dropWhile_suffix (l := cs) (· != ']')).length_le
    simp only [takeSet] at h
    split at h
    · next e =>
      cases h
      rw [e] at hle
      simp only [List.length_cons] at *
      omega
    · cases h

/-- Adds `**`, unless it would stand behind another one that is not the first
    part. -/
def addComponents : List Wildcard → List Wildcard
  | .anyComponents :: w :: before => .anyComponents :: w :: before
  | before => .anyComponents :: before

/-- Reads the parts of a pattern; `before` are those already read, last one
    first, and `fresh` tells whether a component starts here. There is none if
    there are three stars in a row, if two stars are no component, or if a set
    is not closed. -/
def read (before : List Wildcard) (fresh : Bool) : List Char → Option (List Wildcard)
  | [] => some before.reverse
  | '?' :: cs => read (.anyChar :: before) false cs
  | '*' :: '*' :: cs =>
    -- Two stars have to be a whole component.
    if !fresh then none
    else
      match cs with
      | [] => read (addComponents before) true []
      | '/' :: cs => read (addComponents before) true cs
      | _ => none
  | '*' :: cs => read (.anyStretch :: before) false cs
  | '[' :: '!' :: cs =>
    match _h : takeSet cs with
    | some (set, rest) => read (.noneOf (CharRange.ofText set) :: before) false rest
    | none => none
  | '[' :: cs =>
    match _h : takeSet cs with
    | some (set, rest) => read (.oneOf (CharRange.ofText set) :: before) false rest
    | none => none
  | c :: cs => read (.literal c :: before) (c == '/') cs
termination_by cs => cs.length
decreasing_by
  all_goals
    try have h := takeSet_length ‹_›
    try simp only [List.length_cons, List.length_nil] at *
    omega

/-- The pattern that a text stands for, if it is a good one. -/
def ofText (text : String) : Option Pattern := (read [] true text.toList).map (⟨·⟩)

/-! ## Matching -/

/-- How the beginning of a text compares with a pattern. -/
inductive Comparison where
  | matched
  | mismatch
  /-- The text ends too early: no shorter rest of it can match either. -/
  | tooShort
  deriving Repr, DecidableEq

/-- Is the character one that the part stands for? -/
def accepts (c : Char) : Wildcard → Bool
  | .literal d => c.toLower == d.toLower
  | .anyChar => true
  | .oneOf ranges => ranges.any (·.contains c)
  | .noneOf ranges => !ranges.any (·.contains c)
  | .anyStretch | .anyComponents => false

/-- Compares what follows a stretch for ever longer stretches, which end behind a
    slash if `whole` is set; at the end of the text, the comparison of nothing
    decides. -/
def afterStretch (whole : Bool) (rest : List Char → Comparison) : List Char → Comparison
  | [] => rest []
  | c :: cs =>
    if whole && c != '/' then afterStretch whole rest cs
    else
      -- A text that is too short for the rest stays so for every longer stretch.
      match rest cs with
      | .mismatch => afterStretch whole rest cs
      | result => result

/-- Compares a text with the parts of a pattern. -/
def compare : List Wildcard → List Char → Comparison
  | [], [] => .matched
  | [], _ :: _ => .mismatch
  | part@(.anyStretch) :: parts, cs | part@(.anyComponents) :: parts, cs =>
    match compare parts cs with
    | .mismatch => afterStretch (part == .anyComponents) (compare parts) cs
    | result => result
  | _ :: _, [] => .tooShort
  | part :: parts, c :: cs => if accepts c part then compare parts cs else .mismatch

/-- Does the whole text match the pattern? -/
def matchesText (p : Pattern) (text : String) : Bool :=
  compare p.parts text.toList == .matched

end Pattern

end ElmIntake
