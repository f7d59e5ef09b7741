import ElmIntake.Proofs.Text.Utf8

/-! # Texts have one encoding

    Bytes that are read as a text are the bytes of that text: there is no second
    way to write a character. What the reader keeps out is just what would make
    for one: overlong forms, surrogates and code points beyond the last. -/

namespace ElmIntake.Text

open String (utf8EncodeChar)

/-! ## What is read of several bytes -/

/-- A trailing byte that is read holds six bits. -/
theorem readTrail_succ_cases {seen code more n : Nat} {bytes rest : Bytes}
    (h : readTrail seen code (more + 1) bytes = .ok (n, rest)) :
    ∃ b bytes', bytes = b :: bytes' ∧ 0x80 ≤ b.toNat ∧ b.toNat ≤ 0xBF ∧
      readTrail (seen + 1) (64 * code + b.toNat % 64) more bytes' = .ok (n, rest) := by
  cases bytes with
  | nil => cases h
  | cons b bytes' =>
    rw [readTrail] at h
    split at h
    · next hrange =>
      simp only [UInt8.le_iff_toNat_le] at hrange
      exact ⟨b, bytes', rfl, hrange.1, hrange.2, h⟩
    · cases h

/-- How the first byte of a character of several bytes bounds the second. -/
theorem continuation?_cases {first : UInt8} {more : Nat} {low high : UInt8}
    (h : continuation? first = some (more, low, high)) :
    0x80 ≤ low.toNat ∧ high.toNat ≤ 0xBF ∧
      ((more = 1 ∧ 0xC2 ≤ first.toNat ∧ first.toNat < 0xE0) ∨
      (more = 2 ∧ 0xE0 ≤ first.toNat ∧ first.toNat < 0xF0 ∧
        (first.toNat = 0xE0 → 0xA0 ≤ low.toNat) ∧ (first.toNat = 0xED → high.toNat ≤ 0x9F)) ∨
      (more = 3 ∧ 0xF0 ≤ first.toNat ∧ first.toNat ≤ 0xF4 ∧
        (first.toNat = 0xF0 → 0x90 ≤ low.toNat) ∧ (first.toNat = 0xF4 → high.toNat ≤ 0x8F))) := by
  rw [← UInt8.ofNat_toNat (x := first), continuation?_ofNat first.toNat_lt] at h
  generalize first.toNat = n at h ⊢
  repeat' split at h
  all_goals cases h
  all_goals simp
  all_goals omega

/-! ## Single characters -/

/-- The bytes of the character of a code point. -/
theorem utf8EncodeChar_ofNat {v : Nat} (h : v.isValidChar) :
    utf8EncodeChar (Char.ofNat v) =
      if v ≤ 0x7F then [UInt8.ofNat v]
      else if v ≤ 0x7FF then [UInt8.ofNat (v / 64 % 32 + 0xC0), UInt8.ofNat (v % 64 + 0x80)]
      else if v ≤ 0xFFFF then
        [UInt8.ofNat (v / 4096 % 16 + 0xE0), UInt8.ofNat (v / 64 % 64 + 0x80),
          UInt8.ofNat (v % 64 + 0x80)]
      else
        [UInt8.ofNat (v / 262144 % 8 + 0xF0), UInt8.ofNat (v / 4096 % 64 + 0x80),
          UInt8.ofNat (v / 64 % 64 + 0x80), UInt8.ofNat (v % 64 + 0x80)] := by
  have hcode : (Char.ofNat v).val.toNat = v := by
    unfold Char.ofNat
    rw [dif_pos h]
    rfl
  unfold utf8EncodeChar
  rw [hcode]

/-- **A character has one encoding**: bytes that are read as a character begin
    with those of that character. -/
theorem encode_of_readCharacter {first : UInt8} {bytes rest : Bytes} {c : Char}
    (h : readCharacter first bytes = .ok (c, rest)) :
    first :: bytes = utf8EncodeChar c ++ rest := by
  have hbyte : ∀ (b : UInt8) {n : Nat}, n = b.toNat → UInt8.ofNat n = b := by
    rintro b n rfl
    exact UInt8.ofNat_toNat
  unfold readCharacter at h
  split at h
  · next hascii =>
    cases h
    rw [UInt8.lt_iff_toNat_lt] at hascii
    have hlt : first.toNat < 0x80 := hascii
    rw [utf8EncodeChar_ofNat (.inl (by omega)), if_pos (by omega), UInt8.ofNat_toNat]
    rfl
  split at h
  · cases h
  · cases h
  · next more low high second bytes hcont =>
    split at h
    case isFalse => cases h
    next hrange =>
    rw [UInt8.le_iff_toNat_le, UInt8.le_iff_toNat_le] at hrange
    cases htrail : readTrail 2 (64 * leadBits first more + second.toNat % 64) (more - 1) bytes with
    | error e => simp [htrail, Except.map] at h
    | ok r =>
      obtain ⟨v, tail⟩ := r
      simp only [htrail, Except.map, Except.ok.injEq, Prod.mk.injEq] at h
      obtain ⟨rfl, rfl⟩ := h
      obtain ⟨hlow, hhigh, hmore⟩ := continuation?_cases hcont
      -- The cases are those of the number of bytes.
      rcases hmore with ⟨rfl, hfirst⟩ | ⟨rfl, hfirst⟩ | ⟨rfl, hfirst⟩
      · have hlead : leadBits first 1 = first.toNat % 32 := rfl
        rw [readTrail_zero, hlead, Except.ok.injEq, Prod.mk.injEq] at htrail
        obtain ⟨hv, rfl⟩ := htrail
        rw [utf8EncodeChar_ofNat (.inl (by omega)), if_neg (by omega), if_pos (by omega),
          hbyte first (by omega), hbyte second (by omega)]
        rfl
      · obtain ⟨third, tail', rfl, hthird, hthird', hend⟩ := readTrail_succ_cases htrail
        have hlead : leadBits first 2 = first.toNat % 16 := rfl
        rw [readTrail_zero, hlead, Except.ok.injEq, Prod.mk.injEq] at hend
        obtain ⟨hv, rfl⟩ := hend
        have hvalid : v < 0xD800 ∨ 0xDFFF < v ∧ v < 0x110000 := by omega
        rw [utf8EncodeChar_ofNat hvalid, if_neg (by omega), if_neg (by omega), if_pos (by omega),
          hbyte first (by omega), hbyte second (by omega), hbyte third (by omega)]
        rfl
      · obtain ⟨third, tail', rfl, hthird, hthird', htrail'⟩ := readTrail_succ_cases htrail
        obtain ⟨fourth, tail'', rfl, hfourth, hfourth', hend⟩ := readTrail_succ_cases htrail'
        have hlead : leadBits first 3 = first.toNat % 8 := rfl
        rw [readTrail_zero, hlead, Except.ok.injEq, Prod.mk.injEq] at hend
        obtain ⟨hv, rfl⟩ := hend
        have hvalid : v < 0xD800 ∨ 0xDFFF < v ∧ v < 0x110000 := by omega
        rw [utf8EncodeChar_ofNat hvalid, if_neg (by omega), if_neg (by omega), if_neg (by omega),
          hbyte first (by omega), hbyte second (by omega), hbyte third (by omega),
          hbyte fourth (by omega)]
        rfl

/-! ## Whole texts -/

theorem encode_of_readCharacters {index : Nat} {read cs : List Char} {bytes : Bytes}
    (h : readCharacters index read bytes = .ok cs) :
    ∃ new, cs = read.reverse ++ new ∧ bytes = new.flatMap utf8EncodeChar := by
  fun_induction readCharacters index read bytes with
  | case1 index read =>
    cases h
    exact ⟨[], by simp, rfl⟩
  | case2 index read first bytes c rest hread ih =>
    obtain ⟨new, rfl, hrest⟩ := ih h
    exact ⟨c :: new, by simp, by rw [encode_of_readCharacter hread, hrest, List.flatMap_cons]⟩
  | case3 => cases h

/-- **A text has one encoding**: bytes that are read as a text are its bytes. -/
theorem toUtf8_of_ofUtf8 {bytes : Bytes} {s : String} (h : ofUtf8 bytes = .ok s) :
    toUtf8 s = bytes := by
  unfold ofUtf8 at h
  cases hread : readCharacters 0 [] bytes with
  | error fault => simp [hread, Except.map] at h
  | ok cs =>
    simp only [hread, Except.map, Except.ok.injEq] at h
    obtain ⟨new, rfl, hbytes⟩ := encode_of_readCharacters hread
    rw [← h, hbytes]
    simp [toUtf8]

end ElmIntake.Text
