/-! # UTF-8

    Between text and bytes. A reader of bytes says exactly where and how they
    stop being UTF-8: the shortest stretch that no text begins with, or an end
    in the middle of a character. -/

namespace ElmIntake

/-- Raw content of a file. -/
abbrev Bytes := List UInt8

namespace Text

/-- The bytes of a text. -/
def toUtf8 (s : String) : Bytes := s.toList.flatMap String.utf8EncodeChar

/-- Where bytes stop being UTF-8. -/
structure Utf8Fault where
  /-- Number of bytes before it, all of them good. -/
  index : Nat
  /-- Length of the bad stretch; none if the bytes end inside a character. -/
  badLength : Option Nat
  deriving Repr, DecidableEq

namespace Utf8Fault

/-- The wording of the fault. -/
protected def toString (f : Utf8Fault) : String :=
  match f.badLength with
  | some n => s!"invalid utf-8 sequence of {n} bytes from index {f.index}"
  | none => s!"incomplete utf-8 byte sequence from index {f.index}"

instance : ToString Utf8Fault := ⟨Utf8Fault.toString⟩

end Utf8Fault

/-! ## Single characters -/

/-- How a character of several bytes goes on after its first byte: how many
    bytes follow, and the least and the greatest second byte. The bounds keep
    out overlong forms, surrogates, and all beyond the last code point. -/
def continuation? (first : UInt8) : Option (Nat × UInt8 × UInt8) :=
  if first < 0xC2 then none
  else if first < 0xE0 then some (1, 0x80, 0xBF)
  else if first = 0xE0 then some (2, 0xA0, 0xBF)
  else if first = 0xED then some (2, 0x80, 0x9F)
  else if first < 0xF0 then some (2, 0x80, 0xBF)
  else if first = 0xF0 then some (3, 0x90, 0xBF)
  else if first < 0xF4 then some (3, 0x80, 0xBF)
  else if first = 0xF4 then some (3, 0x80, 0x8F)
  else none

/-- Bits of the code point that the first byte holds, before `more` others. -/
def leadBits (first : UInt8) (more : Nat) : Nat := first.toNat % Nat.pow 2 (6 - more)

/-- Reads `more` further bytes of a character after `seen` of its bytes, with
    the bits so far. A fault is the length of the bad stretch, or none at the
    end of the bytes. -/
def readTrail (seen : Nat) (code : Nat) : (more : Nat) → Bytes →
    Except (Option Nat) (Nat × Bytes)
  | 0, bytes => .ok (code, bytes)
  | _ + 1, [] => .error none
  | more + 1, b :: bytes =>
    if 0x80 ≤ b ∧ b ≤ 0xBF then readTrail (seen + 1) (64 * code + b.toNat % 64) more bytes
    else .error (some seen)

/-- Reads the character that starts with the byte `first`. -/
def readCharacter (first : UInt8) (bytes : Bytes) : Except (Option Nat) (Char × Bytes) :=
  if first < 0x80 then .ok (Char.ofNat first.toNat, bytes)
  else
    match continuation? first, bytes with
    | none, _ => .error (some 1)
    | some _, [] => .error none
    | some (more, low, high), second :: bytes =>
      if low ≤ second ∧ second ≤ high then
        (readTrail 2 (64 * leadBits first more + second.toNat % 64) (more - 1) bytes).map
          fun (code, rest) => (Char.ofNat code, rest)
      else .error (some 1)

theorem readTrail_length {seen code more : Nat} {bytes rest : Bytes} {n : Nat}
    (h : readTrail seen code more bytes = .ok (n, rest)) : rest.length ≤ bytes.length := by
  fun_induction readTrail seen code more bytes with
  | case1 => cases h; exact Nat.le_refl _
  | case2 => cases h
  | case3 _ _ _ _ _ _ ih => exact Nat.le_succ_of_le (ih h)
  | case4 => cases h

/-- A character takes at least one byte. -/
theorem readCharacter_length {first : UInt8} {bytes rest : Bytes} {c : Char}
    (h : readCharacter first bytes = .ok (c, rest)) : rest.length ≤ bytes.length := by
  unfold readCharacter at h
  split at h
  · cases h; exact Nat.le_refl _
  · split at h
    · cases h
    · cases h
    · next more low high second bytes _ =>
      split at h
      · cases eq : readTrail 2 (64 * leadBits first more + second.toNat % 64) (more - 1) bytes with
        | error e => simp [eq, Except.map] at h
        | ok r =>
          simp only [eq, Except.map] at h
          cases h
          exact Nat.le_succ_of_le (readTrail_length eq)
      · cases h

/-! ## Whole texts -/

/-- Reads all characters; `read` are those already read, last one first, and
    `index` is the number of bytes they took. -/
def readCharacters (index : Nat) (read : List Char) : Bytes → Except Utf8Fault (List Char)
  | [] => .ok read.reverse
  | first :: bytes =>
    match _h : readCharacter first bytes with
    | .ok (c, rest) =>
      readCharacters (index + c.utf8Size) (c :: read) rest
    | .error badLength => .error ⟨index, badLength⟩
termination_by bytes => bytes.length
decreasing_by exact Nat.lt_succ_of_le (readCharacter_length ‹_›)

/-- The text of the bytes, if they are UTF-8. -/
def ofUtf8 (bytes : Bytes) : Except Utf8Fault String :=
  (readCharacters 0 [] bytes).map String.ofList

/-- The text of the bytes with every bad stretch replaced by U+FFFD. -/
def readCharactersLossy (read : List Char) : Bytes → List Char
  | [] => read.reverse
  | first :: bytes =>
    match _h : readCharacter first bytes with
    | .ok (c, rest) => readCharactersLossy (c :: read) rest
    | .error (some bad) => readCharactersLossy ('\uFFFD' :: read) (bytes.drop (bad - 1))
    | .error none => (('\uFFFD' :: read).reverse)
termination_by bytes => bytes.length
decreasing_by
  · exact Nat.lt_succ_of_le (readCharacter_length ‹_›)
  · exact Nat.lt_succ_of_le (List.drop_suffix _ _).length_le

/-- The text of any bytes; what is not UTF-8 becomes U+FFFD. -/
def ofUtf8Lossy (bytes : Bytes) : String := String.ofList (readCharactersLossy [] bytes)

end Text

end ElmIntake
