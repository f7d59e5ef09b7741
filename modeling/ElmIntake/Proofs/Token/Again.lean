import ElmIntake.Proofs.Token.Blank
import ElmIntake.Proofs.Token.Words

/-! # What was read is read again

    A reader looks ahead of what it takes. So it is not enough that the text of a token
    stands somewhere else for the same token to be read there: what follows has to end it
    as well. Blanks, commas and brackets that close do so for all tokens (`Ends`), and so
    do the marks inside a number or a name for the part before them (`Stops`).

    Each reader has a lemma here that says how it reads what it took of one source when
    that stands before another rest (`_again`). Strings and characters are not printed as
    they were written, and have a module of their own. -/

namespace ElmIntake

/-! ## What ends a token -/

/-- Does a class of characters hold no character that the text begins with? -/
def Stops (p : Char → Bool) (text : List Char) : Prop := ∀ d ∈ text.head?, p d = false

/-- Blanks, commas and brackets that close, none of which goes on with a token. -/
def ends : List Char := [' ', '\n', '\r', ',', ')', ']', '\x7d']

/-- Does a text begin with one of these, if it is not empty? -/
def Ends (text : List Char) : Prop := ∀ d ∈ text.head?, d ∈ ends

/-- Does a class hold no such character? -/
def EndFree (p : Char → Bool) : Prop := ∀ d ∈ ends, p d = false

instance (p : Char → Bool) : Decidable (EndFree p) := List.decidableBAll _ _

section

variable {p : Char → Bool} {text rest cs : List Char} {c : Char}

theorem Ends.stops (h : Ends rest) (hp : EndFree p) : Stops p rest := fun d hd => hp d (h d hd)

theorem Stops.append (h : Stops p text) (hrest : Stops p rest) : Stops p (text ++ rest) := by
  cases text with
  | nil => exact hrest
  | cons d text => exact h

theorem stops_nil : Stops p [] := nofun

theorem stops_cons (h : p c = false) : Stops p (c :: cs) := by
  rintro d ⟨⟩
  exact h

theorem takeWhile_of_stops (h : Stops p rest) : rest.takeWhile p = [] := by
  cases rest with
  | nil => rfl
  | cons d rest => exact List.takeWhile_cons_of_neg (by simp [h d rfl])

theorem dropWhile_of_stops (h : Stops p rest) : rest.dropWhile p = rest := by
  cases rest with
  | nil => rfl
  | cons d rest => exact List.dropWhile_cons_of_neg (by simp [h d rfl])

theorem takeWhile_append_stops (hcs : ∀ c ∈ cs, p c = true) (h : Stops p rest) :
    (cs ++ rest).takeWhile p = cs := by
  rw [List.takeWhile_append_of_pos hcs, takeWhile_of_stops h, List.append_nil]

theorem dropWhile_append_stops (hcs : ∀ c ∈ cs, p c = true) (h : Stops p rest) :
    (cs ++ rest).dropWhile p = rest := by
  rw [List.dropWhile_append_of_pos hcs, dropWhile_of_stops h]

/-- A run of characters ends where it ended. -/
theorem takeWhile_again (h : Stops p rest) (cs : List Char) :
    (cs.takeWhile p ++ rest).takeWhile p = cs.takeWhile p :=
  takeWhile_append_stops (fun _ => List.mem_takeWhile_imp) h

theorem dropWhile_again (h : Stops p rest) (cs : List Char) :
    (cs.takeWhile p ++ rest).dropWhile p = rest :=
  dropWhile_append_stops (fun _ => List.mem_takeWhile_imp) h

end

/-- The cut that takes the same text from another source. -/
def Cut.again {α : Type} (cut : Cut α) (rest : List Char) : Cut α := { cut with rest }

section

variable {rest cs : List Char} {c : Char}

/-! ## Names -/

/-- What follows the first segment of a name begins with a dot. -/
theorem readDotted_stops (upper : Bool) (cs : List Char) :
    Stops isNameChar (readDotted upper cs).text := by
  fun_induction readDotted upper cs with
  | case1 => exact stops_cons (by decide)
  | case2 => exact stops_nil
  | case3 => exact stops_nil

theorem readDotted_of_stops {upper : Bool} (h : Stops (· == '.') rest) :
    readDotted upper rest = ⟨upper, [], rest⟩ := by
  rw [readDotted]
  rintro d cs rfl
  exact absurd (h '.' rfl) (by decide)

theorem readDotted_again (h : Ends rest) (upper : Bool) (cs : List Char) :
    readDotted upper ((readDotted upper cs).text ++ rest) = (readDotted upper cs).again rest := by
  fun_induction readDotted upper cs with
  | case1 upper c cs hstart ih =>
    have hstops := (readDotted_stops (upper && Text.isUppercase c) (cs.dropWhile isNameChar)).append
      (h.stops (by decide))
    show readDotted upper ('.' :: c :: (cs.takeWhile isNameChar ++ _) ++ rest) = _
    rw [List.cons_append, List.cons_append, List.append_assoc, readDotted, if_pos hstart,
      takeWhile_again hstops, dropWhile_again hstops, ih]
    rfl
  | case2 => exact readDotted_of_stops (h.stops (by decide))
  | case3 => exact readDotted_of_stops (h.stops (by decide))

theorem readName_again (h : Ends rest) (cs : List Char) :
    readName ((readName cs).text ++ rest) = (readName cs).again rest := by
  unfold readName
  dsimp only
  split
  · next hfirst =>
    have hstops : Stops isNameChar rest := h.stops (by decide)
    rw [takeWhile_again hstops, dropWhile_again hstops, if_pos hfirst]
    rfl
  · next hfirst =>
    have hstops := (readDotted_stops ((cs.takeWhile isNameChar).head?.any Text.isUppercase)
      (cs.dropWhile isNameChar)).append (h.stops (by decide))
    simp only [Cut.after, List.append_assoc]
    rw [takeWhile_again hstops, dropWhile_again hstops, if_neg hfirst, readDotted_again h]
    rfl

/-! ## Numbers -/

theorem readFraction_of_stops (h : Stops (· == '.') rest) : readFraction rest = ⟨(), [], rest⟩ := by
  rw [readFraction]
  rintro d cs rfl
  exact absurd (h '.' rfl) (by decide)

theorem readFraction_stops (cs : List Char) : Stops Char.isDigit (readFraction cs).text := by
  unfold readFraction
  split
  · split
    · exact stops_cons (by decide)
    · exact stops_nil
  · exact stops_nil

theorem readFraction_again (h : Stops (· == '.') rest) (hdigit : Stops Char.isDigit rest)
    {cut : Cut Unit} (hcut : readFraction cs = cut) :
    readFraction (cut.text ++ rest) = cut.again rest := by
  unfold readFraction at hcut
  split at hcut
  · next c cs =>
    split at hcut
    · next hc =>
      subst hcut
      show readFraction ('.' :: c :: (cs.takeWhile Char.isDigit ++ rest)) = _
      rw [readFraction, if_pos hc]
      unfold Cut.ofClass
      rw [takeWhile_again hdigit, dropWhile_again hdigit]
      rfl
    · subst hcut
      exact readFraction_of_stops h
  · subst hcut
    exact readFraction_of_stops h

/-- Is a character the mark of an exponent? -/
def isExponentMark (c : Char) : Bool := c == 'e' || c == 'E'

theorem readExponent_of_stops (h : Stops isExponentMark rest) :
    readExponent rest = ⟨(), [], rest⟩ := by
  unfold readExponent
  split
  · next e s cs =>
    have he : (e == 'e' || e == 'E') = false := h e rfl
    rw [if_neg (by simp [he])]
  · rfl

/-- An exponent begins with its mark. -/
theorem readExponent_stops {p : Char → Bool} (hp : p 'e' = false ∧ p 'E' = false)
    (cs : List Char) : Stops p (readExponent cs).text := by
  have hmark : ∀ e, (e == 'e' || e == 'E') = true → p e = false := by
    intro e he
    rcases Bool.or_eq_true_iff.1 he with he | he
    · rw [beq_iff_eq.1 he]
      exact hp.1
    · rw [beq_iff_eq.1 he]
      exact hp.2
  fun_cases readExponent cs with
  | case1 e s cs he => exact stops_cons (hmark e he)
  | case2 e s he => exact stops_cons (hmark e he)
  | _ => exact stops_nil

theorem readExponent_again (h : Stops isExponentMark rest) (hdigit : Stops Char.isDigit rest)
    {cut : Cut Unit} (hcut : readExponent cs = cut) :
    readExponent (cut.text ++ rest) = cut.again rest := by
  subst hcut
  fun_cases readExponent cs with
  | case1 e s cs he hs =>
    show readExponent (e :: s :: (cs.takeWhile Char.isDigit ++ rest)) = _
    unfold readExponent
    rw [if_pos he, if_pos hs]
    unfold Cut.ofClass
    rw [takeWhile_again hdigit, dropWhile_again hdigit]
    rfl
  | case2 e s he hs hsign d ds hd =>
    show readExponent (e :: s :: d :: (ds.takeWhile Char.isDigit ++ rest)) = _
    unfold readExponent
    dsimp only
    rw [if_pos he, if_neg hs, if_pos hsign, if_pos hd]
    unfold Cut.ofClass
    rw [takeWhile_again hdigit, dropWhile_again hdigit]
    rfl
  -- In all other cases there is no exponent, and what stands behind does not start one.
  | _ => exact readExponent_of_stops h

theorem endNumber_again {digits text : List Char} {cut : Cut TokenKind}
    (h : endNumber digits text cs = .ok cut) (text' : List Char) (hrest : Ends rest) :
    cut.value = .number (String.ofList digits) ∧
      endNumber digits text' rest = .ok ⟨cut.value, text', rest⟩ := by
  unfold endNumber at h ⊢
  split at h
  · cases h
  · cases h
    refine ⟨rfl, if_neg ?_⟩
    cases rest with
    | nil => simp
    | cons d rest =>
      have hd : isNameChar d = false := hrest.stops (by decide) d rfl
      simp [hd]

/-- A hexadecimal number is printed with a small letter, and read again with it. -/
theorem readHexNumber_again {x : Char} {cut : Cut TokenKind} (h : readHexNumber x cs = .ok cut)
    (hrest : Ends rest) :
    ∃ digits, cut.value.text.toList = '0' :: 'x' :: digits ∧
      readHexNumber 'x' (digits ++ rest) = .ok ⟨cut.value, cut.value.text.toList, rest⟩ := by
  unfold readHexNumber at h
  dsimp only at h
  split at h
  · cases h
  · next hdigits =>
    obtain ⟨hvalue, hend⟩ :=
      endNumber_again h ('0' :: 'x' :: cs.takeWhile isHexDigit) hrest
    have hstops : Stops isHexDigit rest := hrest.stops (by decide)
    have htext : cut.value.text.toList = '0' :: 'x' :: cs.takeWhile isHexDigit := by
      rw [hvalue]
      exact String.toList_ofList
    refine ⟨cs.takeWhile isHexDigit, htext, ?_⟩
    unfold readHexNumber
    dsimp only
    rw [takeWhile_again hstops, dropWhile_again hstops, if_neg hdigits, hend, htext]

theorem readDecimal_again {cut : Cut TokenKind} (h : readDecimal cs = .ok cut)
    (hrest : Ends rest) :
    readDecimal (cut.value.text.toList ++ rest) =
      .ok ⟨cut.value, cut.value.text.toList, rest⟩ := by
  unfold readDecimal at h
  dsimp only at h
  generalize hfraction : readFraction (cs.dropWhile Char.isDigit) = fraction at h
  generalize hexponent : readExponent fraction.rest = exponent at h
  obtain ⟨hvalue, hend⟩ := endNumber_again h
    (cs.takeWhile Char.isDigit ++ (fraction.text ++ exponent.text)) hrest
  have htext : cut.value.text.toList =
      cs.takeWhile Char.isDigit ++ (fraction.text ++ exponent.text) := by
    rw [hvalue]
    exact String.toList_ofList
  -- Each part ends where it ended, as the next one begins with a mark of its own.
  have hdigit : Stops Char.isDigit (exponent.text ++ rest) :=
    (hexponent ▸ readExponent_stops (by decide) _).append (hrest.stops (by decide))
  have hdot : Stops (· == '.') (exponent.text ++ rest) :=
    (hexponent ▸ readExponent_stops (by decide) _).append (hrest.stops (by decide))
  have hdigits : Stops Char.isDigit (fraction.text ++ (exponent.text ++ rest)) :=
    (hfraction ▸ readFraction_stops _).append hdigit
  unfold readDecimal
  dsimp only
  rw [htext, List.append_assoc, List.append_assoc, takeWhile_again hdigits,
    dropWhile_again hdigits, readFraction_again hdot hdigit hfraction]
  dsimp only [Cut.again]
  rw [readExponent_again (hrest.stops (by decide)) (hrest.stops (by decide)) hexponent]
  exact hend

/-! ## Shaders and comments -/

/-- The code of a shader holds no end mark, so its end is found again. -/
theorem readCode_again {seen : List Char} {cut : Cut Unit} (h : readCode seen cs = some cut) :
    ∃ code, cut.text = seen.reverse ++ code ∧
      ∀ rest, readCode seen (code ++ '|' :: ']' :: rest) = some (cut.again rest) := by
  fun_induction readCode seen cs with
  | case1 seen cs =>
    cases h
    exact ⟨[], by simp, fun _ => rfl⟩
  | case2 seen c cs hend ih =>
    obtain ⟨code, htext, hagain⟩ := ih h
    have hcs : code ++ '|' :: ']' :: cut.rest = cs := by
      have hsource := readCode_source h
      rw [htext] at hsource
      simpa using hsource
    refine ⟨c :: code, by simp [htext], fun rest => ?_⟩
    rw [List.cons_append, readCode]
    · exact hagain rest
    · -- The character behind is what it was, so there is no end mark here either.
      rintro rest' rfl heq
      cases code with
      | nil => cases heq
      | cons d code =>
        obtain rfl : d = ']' := (List.cons.inj heq).1
        exact hend _ rfl hcs.symm
  | case3 => cases h

/-- Well nested text is passed over, up to the mark that closes the comment. -/
theorem readNested_append {text : List Char} (h : Nested text) (seen : List Char) (depth : Nat)
    (rest : List Char) :
    readNested seen depth (text ++ '-' :: '\x7d' :: rest) =
      readNested (text.reverse ++ seen) depth ('-' :: '\x7d' :: rest) := by
  induction h generalizing seen depth rest with
  | done => rfl
  | @char c text hmark _ ih =>
    have hnext : (text ++ '-' :: '\x7d' :: rest).head? = some (text.headD '-') := by
      cases text <;> rfl
    -- What starts no mark in the text starts none before the mark behind it either.
    rw [List.cons_append, readNested, ih]
    · simp
    · rintro cs rfl heq
      rw [heq] at hnext
      exact hmark (.inl ⟨rfl, (Option.some.inj hnext).symm⟩)
    · rintro cs - rfl heq
      rw [heq] at hnext
      exact hmark (.inr ⟨rfl, (Option.some.inj hnext).symm⟩)
    · rintro n cs - rfl heq
      rw [heq] at hnext
      exact hmark (.inr ⟨rfl, (Option.some.inj hnext).symm⟩)
  | @comment inner text _ _ ihInner ihText =>
    have hsplit : ('\x7b' :: '-' :: inner ++ '-' :: '\x7d' :: text) ++ '-' :: '\x7d' :: rest =
        '\x7b' :: '-' :: (inner ++ '-' :: '\x7d' :: (text ++ '-' :: '\x7d' :: rest)) := by simp
    rw [hsplit, readNested, ihInner, readNested, ihText]
    simp

theorem readNested_again {cut : Cut Unit} (h : readNested [] 0 cs = some cut)
    (rest : List Char) :
    readNested [] 0 (cut.text ++ '-' :: '\x7d' :: rest) = some (cut.again rest) := by
  obtain ⟨text, htext, hnested⟩ := readNested_nested h
  obtain rfl : cut.text = text := by simpa using htext
  rw [readNested_append hnested, readNested]
  simp [Cut.again]

end

end ElmIntake
