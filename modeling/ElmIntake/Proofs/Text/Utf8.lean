import ElmIntake.Text.Utf8
import Mathlib.Algebra.Group.Nat.Defs

/-! # Reading UTF-8 back

    The bytes of a text are read back as that text. The heart of it is a single
    character: its first byte fixes how many bytes follow and the range of the
    second one, and that range is always met by the bytes of a character. -/

namespace ElmIntake.Text

open String (utf8EncodeChar)

/-! ## Single bytes -/

theorem toNat_ofNat_of_lt {n : Nat} (h : n < 256) : (UInt8.ofNat n).toNat = n := by
  simp [Nat.mod_eq_of_lt h]

/-- `continuation?` on the byte that stands for `n`, in terms of `n`. -/
theorem continuation?_ofNat {n : Nat} (h : n < 256) :
    continuation? (UInt8.ofNat n) =
      if n < 0xC2 then none
      else if n < 0xE0 then some (1, 0x80, 0xBF)
      else if n = 0xE0 then some (2, 0xA0, 0xBF)
      else if n = 0xED then some (2, 0x80, 0x9F)
      else if n < 0xF0 then some (2, 0x80, 0xBF)
      else if n = 0xF0 then some (3, 0x90, 0xBF)
      else if n < 0xF4 then some (3, 0x80, 0xBF)
      else if n = 0xF4 then some (3, 0x80, 0x8F)
      else none := by
  simp only [continuation?, UInt8.lt_iff_toNat_lt, ← UInt8.toNat_inj, toNat_ofNat_of_lt h]
  rfl

theorem readTrail_zero (seen code : Nat) (bytes : Bytes) :
    readTrail seen code 0 bytes = .ok (code, bytes) := by
  simp [readTrail]

/-- A trailing byte adds its six bits to the code point. -/
theorem readTrail_succ (seen code more n : Nat) (bytes : Bytes) :
    readTrail seen code (more + 1) (UInt8.ofNat (n % 64 + 0x80) :: bytes) =
      readTrail (seen + 1) (64 * code + n % 64) more bytes := by
  have hlt : n % 64 + 0x80 < 256 := by omega
  rw [readTrail, if_pos, toNat_ofNat_of_lt hlt]
  · congr 2
    omega
  · simp only [UInt8.le_iff_toNat_le, toNat_ofNat_of_lt hlt]
    exact ⟨by simp, by simp; omega⟩

/-! ## Single characters -/

/-- A first byte of several, and a second byte in its range, are read. -/
theorem readCharacter_ofNat {n m more : Nat} {low high : UInt8} {bytes : Bytes}
    (hn : 0x80 ≤ n ∧ n < 256)
    (hcont : continuation? (UInt8.ofNat n) = some (more, low, high))
    (hlow : low.toNat ≤ m % 64 + 0x80) (hhigh : m % 64 + 0x80 ≤ high.toNat) :
    readCharacter (UInt8.ofNat n) (UInt8.ofNat (m % 64 + 0x80) :: bytes) =
      (readTrail 2 (64 * (n % 2 ^ (6 - more)) + m % 64) (more - 1) bytes).map
        fun (code, rest) => (Char.ofNat code, rest) := by
  have hm : m % 64 + 0x80 < 256 := by omega
  have hfirst : ¬ UInt8.ofNat n < 0x80 := by
    rw [UInt8.lt_iff_toNat_lt, toNat_ofNat_of_lt hn.2]
    exact Nat.not_lt.2 hn.1
  have hcode : (UInt8.ofNat (m % 64 + 0x80)).toNat % 64 = m % 64 := by
    rw [toNat_ofNat_of_lt hm]
    omega
  have hsecond : low ≤ UInt8.ofNat (m % 64 + 0x80) ∧ UInt8.ofNat (m % 64 + 0x80) ≤ high := by
    rw [UInt8.le_iff_toNat_le, UInt8.le_iff_toNat_le, toNat_ofNat_of_lt hm]
    exact ⟨hlow, hhigh⟩
  have hlead : leadBits (UInt8.ofNat n) more = n % 2 ^ (6 - more) := by
    rw [leadBits, toNat_ofNat_of_lt hn.2]
    rfl
  unfold readCharacter
  rw [if_neg hfirst, hcont]
  simp only [if_pos hsecond, hcode, hlead]

/-- The range of the second byte of a character of three bytes. It leaves out
    overlong forms and surrogates. -/
theorem continuation?_three {v : Nat} (hv : 0x800 ≤ v ∧ v ≤ 0xFFFF)
    (hvalid : v < 0xD800 ∨ 0xDFFF < v) :
    ∃ low high, continuation? (UInt8.ofNat (v / 4096 % 16 + 0xe0)) = some (2, low, high) ∧
      low.toNat ≤ v / 64 % 64 + 0x80 ∧ v / 64 % 64 + 0x80 ≤ high.toNat := by
  rw [continuation?_ofNat (by omega), if_neg (by omega), if_neg (by omega)]
  by_cases hE0 : v / 4096 = 0
  · exact ⟨0xA0, 0xBF, by rw [if_pos (by omega)], by simp; omega, by simp; omega⟩
  · by_cases hED : v / 4096 = 13
    · exact ⟨0x80, 0x9F, by rw [if_neg (by omega), if_pos (by omega)], by simp, by simp; omega⟩
    · exact ⟨0x80, 0xBF, by rw [if_neg (by omega), if_neg (by omega), if_pos (by omega)],
        by simp, by simp; omega⟩

/-- The range of the second byte of a character of four bytes. It leaves out
    overlong forms and all beyond the last code point. -/
theorem continuation?_four {v : Nat} (hv : 0x10000 ≤ v ∧ v < 0x110000) :
    ∃ low high, continuation? (UInt8.ofNat (v / 262144 % 8 + 0xf0)) = some (3, low, high) ∧
      low.toNat ≤ v / 4096 % 64 + 0x80 ∧ v / 4096 % 64 + 0x80 ≤ high.toNat := by
  rw [continuation?_ofNat (by omega), if_neg (by omega), if_neg (by omega), if_neg (by omega),
    if_neg (by omega), if_neg (by omega)]
  by_cases hF0 : v / 262144 = 0
  · exact ⟨0x90, 0xBF, by rw [if_pos (by omega)], by simp; omega, by simp; omega⟩
  · by_cases hF4 : v / 262144 = 4
    · exact ⟨0x80, 0x8F, by rw [if_neg (by omega), if_neg (by omega), if_pos (by omega)],
        by simp, by simp; omega⟩
    · exact ⟨0x80, 0xBF, by rw [if_neg (by omega), if_pos (by omega)], by simp, by simp; omega⟩

/-- The bytes of a character are read back as that character, whatever
    follows. -/
theorem readCharacter_encode (c : Char) (rest : Bytes) :
    ∃ first more, utf8EncodeChar c = first :: more ∧
      readCharacter first (more ++ rest) = .ok (c, rest) := by
  have hvalid : c.toNat < 0xD800 ∨ 0xDFFF < c.toNat ∧ c.toNat < 0x110000 := c.valid
  unfold utf8EncodeChar
  rw [show c.val.toNat = c.toNat from rfl]
  generalize hv : c.toNat = v at *
  have hc : Char.ofNat v = c := hv ▸ c.ofNat_toNat
  dsimp only
  -- the cases are those of the number of bytes
  split
  case isTrue h1 =>
    refine ⟨_, _, rfl, ?_⟩
    have hlt : UInt8.ofNat v < 0x80 := by
      rw [UInt8.lt_iff_toNat_lt, toNat_ofNat_of_lt (by omega)]
      exact Nat.lt_succ_of_le h1
    unfold readCharacter
    rw [if_pos hlt, toNat_ofNat_of_lt (by omega), hc]
    rfl
  case isFalse h1 =>
  split
  case isTrue h2 =>
    refine ⟨_, _, rfl, ?_⟩
    have hn : 0x80 ≤ v / 64 % 32 + 0xc0 ∧ v / 64 % 32 + 0xc0 < 256 := by omega
    have hcode : 64 * ((v / 64 % 32 + 0xc0) % 2 ^ (6 - 1)) + v % 64 = v := by omega
    rw [List.cons_append, readCharacter_ofNat hn
      (by rw [continuation?_ofNat hn.2, if_neg (by omega), if_pos (by omega)])
      (by simp) (by simp; omega), readTrail_zero, hcode]
    simp only [Except.map, hc, List.nil_append]
  case isFalse h2 =>
  split
  case isTrue h3 =>
    refine ⟨_, _, rfl, ?_⟩
    have hn : 0x80 ≤ v / 4096 % 16 + 0xe0 ∧ v / 4096 % 16 + 0xe0 < 256 := by omega
    have hcode : 64 * (64 * ((v / 4096 % 16 + 0xe0) % 2 ^ (6 - 2)) + v / 64 % 64) + v % 64 =
        v := by
      omega
    obtain ⟨low, high, hcont, hlow, hhigh⟩ :=
      continuation?_three (v := v) (by omega) (by omega)
    rw [List.cons_append, readCharacter_ofNat hn hcont hlow hhigh, List.cons_append,
      readTrail_succ, readTrail_zero, hcode]
    simp only [Except.map, hc, List.nil_append]
  case isFalse h3 =>
    refine ⟨_, _, rfl, ?_⟩
    have hn : 0x80 ≤ v / 262144 % 8 + 0xf0 ∧ v / 262144 % 8 + 0xf0 < 256 := by omega
    have hcode : 64 * (64 * (64 * ((v / 262144 % 8 + 0xf0) % 2 ^ (6 - 3)) + v / 4096 % 64) +
        v / 64 % 64) + v % 64 = v := by
      omega
    obtain ⟨low, high, hcont, hlow, hhigh⟩ := continuation?_four (v := v) (by omega)
    rw [List.cons_append, readCharacter_ofNat hn hcont hlow hhigh, List.cons_append,
      List.cons_append, readTrail_succ, readTrail_succ, readTrail_zero, hcode]
    simp only [Except.map, hc, List.nil_append]

/-! ## Whole texts -/

theorem readCharacters_encode (index : Nat) (read cs : List Char) :
    readCharacters index read (cs.flatMap utf8EncodeChar) = .ok (read.reverse ++ cs) := by
  induction cs generalizing index read with
  | nil => simp [readCharacters]
  | cons c cs ih =>
    obtain ⟨first, more, hbytes, hread⟩ := readCharacter_encode c (cs.flatMap utf8EncodeChar)
    rw [List.flatMap_cons, hbytes, List.cons_append, readCharacters]
    split
    · next c' rest h =>
      rw [hread] at h
      cases h
      rw [ih]
      simp
    · next h => simp [hread] at h

/-- A text is read back from its bytes. -/
theorem ofUtf8_toUtf8 (s : String) : ofUtf8 (toUtf8 s) = .ok s := by
  simp [ofUtf8, toUtf8, readCharacters_encode, Except.map]

end ElmIntake.Text
