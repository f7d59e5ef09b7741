import ElmIntake.Proofs.Token.Again

/-! # Printed strings and characters

    A string is printed with the escapes of `Text.quote`, and all of these are read back
    but the one for NUL, which is not known to the reader. A character is printed without
    any escapes between its quotes, and so are the three characters that cannot stand
    there. For every other value the literal is read again (`readString_quote`,
    `readChar_value`), and for these none is read at all, whatever follows
    (`readString_garbled`, `readChar_garbled`). -/

namespace ElmIntake

/-! ## Hexadecimal digits -/

namespace Text

/-- The number that hexadecimal digits stand for. -/
def hexNumber (digits : List Char) : Nat := digits.foldl (fun n d => 16 * n + hexValue d) 0

theorem hexDigits_digit : ∀ d < 16,
    isHexDigit (Nat.digitChar d) = true ∧ hexValue (Nat.digitChar d) = d := by decide

/-- Numbers are written in digits, which stand for them. The induction is on the number, of
    which the last digit is split off. -/
theorem hexDigits_spec (n : Nat) :
    (∀ d ∈ hexDigits n, isHexDigit d = true) ∧ hexNumber (hexDigits n) = n := by
  induction n using Nat.strongRecOn with
  | ind n ih =>
    unfold hexDigits at ih ⊢
    by_cases hn : n < 16
    · obtain ⟨hdigit, hvalue⟩ := hexDigits_digit n hn
      rw [Nat.toDigits_of_lt_base hn]
      exact ⟨by simpa using hdigit, by simpa [hexNumber] using hvalue⟩
    · obtain ⟨hdigit, hvalue⟩ := hexDigits_digit (n % 16) (Nat.mod_lt _ (by decide))
      obtain ⟨hdigits, hnumber⟩ := ih (n / 16) (by omega)
      rw [Nat.toDigits_of_base_le (by decide) (by omega)]
      constructor
      · intro d hd
        rcases List.mem_append.1 hd with hd | hd
        · exact hdigits d hd
        · rw [List.mem_singleton.1 hd]
          exact hdigit
      · unfold hexNumber at hnumber ⊢
        rw [List.foldl_append, hnumber, List.foldl_cons, List.foldl_nil, hvalue]
        omega

end Text

/-- A character is found by the digits of its code point. -/
theorem charOfHex?_hexDigits (c : Char) : charOfHex? (Text.hexDigits c.toNat) = some c := by
  have hnumber : (Text.hexDigits c.toNat).foldl (fun n d => 16 * n + hexValue d) 0 = c.toNat :=
    (Text.hexDigits_spec c.toNat).2
  have hne : (Text.hexDigits c.toNat).isEmpty = false := by
    rw [List.isEmpty_eq_false_iff]
    exact Nat.toDigits_ne_nil
  have hvalid : c.toNat.isValidChar := c.valid
  unfold charOfHex?
  dsimp only
  rw [hnumber, hne, if_neg Bool.false_ne_true, if_pos hvalid, Char.ofNat_toNat]

/-! ## Strings -/

section

variable {c : Char} {value rest opening read seen : List Char}

theorem readCodePoint_hexDigits (c : Char) (rest : List Char) :
    readCodePoint (Text.hexDigits c.toNat ++ '\x7d' :: rest) =
      .ok ⟨c, Text.hexDigits c.toNat ++ ['\x7d'], rest⟩ := by
  have hdigits := (Text.hexDigits_spec c.toNat).1
  have hend : isHexDigit '\x7d' = false := by decide
  unfold readCodePoint
  rw [takeWhile_append_stops hdigits (stops_cons hend),
    dropWhile_append_stops hdigits (stops_cons hend), charOfHex?_hexDigits]
  rfl

/-- A character of a string is printed as itself or as an escape that is read, unless it is
    NUL. -/
theorem quoteChar_cases (hc : c ≠ '\x00') :
    (Text.quoteChar c = [c] ∧ c ≠ '\\' ∧ c ≠ '"' ∧ c ≠ '\n') ∨
      ∃ escape, Text.quoteChar c = '\\' :: escape ∧
        ∀ rest, readEscape (escape ++ rest) = .ok ⟨c, escape, rest⟩ := by
  unfold Text.quoteChar
  split
  · next h =>
    subst h
    exact .inr ⟨['t'], rfl, fun _ => rfl⟩
  split
  · next h =>
    subst h
    exact .inr ⟨['n'], rfl, fun _ => rfl⟩
  next hfeed =>
  split
  · next h =>
    subst h
    exact .inr ⟨['r'], rfl, fun _ => rfl⟩
  split
  · next h =>
    subst h
    exact .inr ⟨['\\'], rfl, fun _ => rfl⟩
  next hslash =>
  split
  · next h =>
    subst h
    exact .inr ⟨['"'], rfl, fun _ => rfl⟩
  next hquote =>
  split
  · refine .inr ⟨'u' :: '\x7b' :: (Text.hexDigits c.toNat ++ ['\x7d']), rfl, fun rest => ?_⟩
    show (readCodePoint ((Text.hexDigits c.toNat ++ ['\x7d']) ++ rest)).map _ = _
    rw [List.append_assoc, List.singleton_append, readCodePoint_hexDigits]
    rfl
  · exact .inl ⟨rfl, hslash, hquote, hfeed⟩

/-- One character more of a string is read. -/
theorem readStringBody_quoteChar (hc : c ≠ '\x00') (opening read seen rest : List Char) :
    readStringBody opening false read seen (Text.quoteChar c ++ rest) =
      readStringBody opening false (c :: read) ((Text.quoteChar c).reverse ++ seen) rest := by
  rcases quoteChar_cases hc with ⟨hself, hslash, hquote, hfeed⟩ | ⟨escape, hescape, hread⟩
  · rw [hself, List.cons_append, readStringBody, if_neg hslash, if_neg Bool.false_ne_true,
      if_neg hfeed, if_neg hquote]
    rfl
  · rw [hescape, List.cons_append, readStringBody, if_pos rfl]
    split
    · next e he =>
      rw [hread] at he
      cases he
      simp
    · next fault he =>
      rw [hread] at he
      cases he

/-- The characters of a string are read up to the closing quote. -/
theorem readStringBody_quoted (hvalue : '\x00' ∉ value) :
    readStringBody opening false read seen (value.flatMap Text.quoteChar ++ '"' :: rest) =
      .ok ⟨.string (String.ofList (read.reverse ++ value)),
        seen.reverse ++ value.flatMap Text.quoteChar ++ ['"'], rest⟩ := by
  induction value generalizing read seen with
  | nil =>
    rw [List.flatMap_nil, List.nil_append, readStringBody, if_neg (by decide),
      if_neg Bool.false_ne_true, if_neg (by decide), if_pos rfl]
    simp
  | cons c value ih =>
    rw [List.mem_cons, not_or] at hvalue
    rw [List.flatMap_cons, List.append_assoc, readStringBody_quoteChar (Ne.symm hvalue.1),
      ih hvalue.2]
    simp

/-- The escape for NUL is not known. -/
theorem readStringBody_garbled (hvalue : '\x00' ∈ value) :
    ∃ fault, readStringBody opening false read seen (value.flatMap Text.quoteChar ++ rest) =
      .error fault := by
  induction value generalizing read seen with
  | nil => cases hvalue
  | cons c value ih =>
    rw [List.flatMap_cons, List.append_assoc]
    by_cases hc : c = '\x00'
    · subst hc
      show ∃ fault, readStringBody opening false read seen ('\\' :: '0' :: _) = .error fault
      rw [readStringBody, if_pos rfl]
      exact ⟨_, rfl⟩
    · rw [readStringBody_quoteChar hc]
      exact ih ((List.mem_cons.1 hvalue).resolve_left (Ne.symm hc))

/-- No character of a string is printed with a quote first. -/
theorem exists_quoteChar (c : Char) : ∃ d ds, Text.quoteChar c = d :: ds ∧ d ≠ '"' := by
  by_cases hc : c = '\x00'
  · subst hc
    exact ⟨'\\', ['0'], rfl, by decide⟩
  · rcases quoteChar_cases hc with ⟨hself, -, hquote, -⟩ | ⟨escape, hescape, -⟩
    · exact ⟨c, [], hself, hquote⟩
    · exact ⟨'\\', escape, hescape, by decide⟩

/-- So what is printed never looks like a string of three quotes. -/
theorem readString_eq (value : List Char) (hrest : ∀ cs, rest ≠ '"' :: cs) :
    readString (value.flatMap Text.quoteChar ++ '"' :: rest) =
      readStringBody ('"' :: (value.flatMap Text.quoteChar ++ '"' :: rest)) false [] ['"']
        (value.flatMap Text.quoteChar ++ '"' :: rest) := by
  rw [readString]
  intro cs heq
  cases value with
  | nil => exact hrest cs (List.cons.inj heq).2
  | cons c value =>
    obtain ⟨d, ds, hchar, hquote⟩ := exists_quoteChar c
    rw [List.flatMap_cons, hchar] at heq
    exact hquote (List.cons.inj heq).1

theorem ne_quote_of_ends (h : Ends rest) (cs : List Char) : rest ≠ '"' :: cs := by
  rintro rfl
  exact absurd (h '"' rfl) (by decide)

/-- **Strings are read again**, unless they hold NUL. -/
theorem readString_quote (hvalue : '\x00' ∉ value) (hrest : Ends rest) :
    readString (value.flatMap Text.quoteChar ++ '"' :: rest) =
      .ok ⟨.string (String.ofList value), '"' :: value.flatMap Text.quoteChar ++ ['"'], rest⟩ := by
  rw [readString_eq value (ne_quote_of_ends hrest), readStringBody_quoted hvalue]
  rfl

theorem readString_garbled (hvalue : '\x00' ∈ value) (hrest : Ends rest) :
    ∃ fault, readString (value.flatMap Text.quoteChar ++ '"' :: rest) = .error fault := by
  rw [readString_eq value (ne_quote_of_ends hrest)]
  exact readStringBody_garbled hvalue

/-! ## Characters -/

/-- The characters that cannot stand between single quotes as themselves. -/
def unquotable : List Char := ['\'', '\\', '\n']

/-- **Characters are read again**, unless they are one of these. -/
theorem readChar_value (hc : c ∉ unquotable) (rest : List Char) :
    readChar (c :: '\'' :: rest) = .ok ⟨.char c.toString, ['\'', c, '\''], rest⟩ := by
  simp only [unquotable, List.mem_cons, List.not_mem_nil, or_false, not_or] at hc
  obtain ⟨hquote, hslash, hfeed⟩ := hc
  unfold readChar
  dsimp only
  split
  · next heq =>
    cases heq
    exact absurd rfl hslash
  · next heq =>
    cases heq
    rw [if_neg (by simp [hquote, hfeed])]
    rfl
  · next heq => cases heq

theorem readChar_garbled (hc : c ∈ unquotable) (hrest : Ends rest) :
    ∃ fault, readChar (c :: '\'' :: rest) = .error fault := by
  simp only [unquotable, List.mem_cons, List.not_mem_nil, or_false] at hc
  rcases hc with rfl | rfl | rfl
  · exact ⟨_, rfl⟩
  · -- The closing quote is taken for an escape, and no other one follows.
    cases rest with
    | nil => exact ⟨_, rfl⟩
    | cons d rest =>
      have hd : d ≠ '\'' := by
        rintro rfl
        exact absurd (hrest '\'' rfl) (by decide)
      show ∃ fault, endChar _ '\'' _ (d :: rest) = .error fault
      unfold endChar
      split
      · next heq =>
        cases heq
        exact absurd rfl hd
      · exact ⟨_, rfl⟩
  · exact ⟨_, rfl⟩

end

end ElmIntake
