import ElmIntake.Entry.Cache
import ElmIntake.Proofs.Entry.RoundTrip
import ElmIntake.Proofs.Text.Canonical

/-! # Stored values have one encoding

    A codec is **canonical** if bytes that it reads as a value begin with the
    encoding of that value, and what it leaves is all that follows. Canonical
    codecs are put together from canonical ones, in step with the faithful ones.

    A codec that is both is free of prefixes: no encoding is the beginning of
    another one, so that an entry that was cut off is never taken for another. -/

namespace ElmIntake

namespace Codec

/-- Two steps of reading succeed one after the other. -/
theorem exists_of_bind_eq_ok {ε α β : Type} {first : Except ε α} {next : α → Except ε β} {b : β}
    (h : (first >>= next) = .ok b) : ∃ a, first = .ok a ∧ next a = .ok b := by
  cases first with
  | error fault => cases h
  | ok a => exact ⟨a, rfl, h⟩

/-! ## Numbers -/

/-- What is read of `width` bytes is a number of that width, and these bytes are
    how it is written. -/
theorem readLittleEndian_cases {width n : Nat} {bytes rest : Bytes}
    (h : readLittleEndian width bytes = .ok (n, rest)) :
    n < 256 ^ width ∧ bytes = littleEndian width n ++ rest := by
  induction width generalizing bytes n with
  | zero =>
    cases h
    exact ⟨by simp, rfl⟩
  | succ width ih =>
    cases bytes with
    | nil => cases h
    | cons b bytes =>
      obtain ⟨⟨m, rest'⟩, hread, hend⟩ := exists_of_bind_eq_ok h
      cases hend
      obtain ⟨hlt, rfl⟩ := ih hread
      have hb := b.toNat_lt
      have hbyte : (b.toNat + 256 * m).toUInt8 = b := by
        rw [← UInt8.toNat_inj]
        simp
      have hdiv : (b.toNat + 256 * m) / 256 = m := by omega
      refine ⟨by rw [Nat.pow_succ]; omega, ?_⟩
      rw [littleEndian, hbyte, hdiv]
      rfl

/-! ## Canonical codecs -/

/-- Bytes that are read as a value are its encoding and what is left. -/
def Canonical {α : Type} (c : Codec α) : Prop :=
  ∀ bytes a rest, c.decode bytes = .ok (a, rest) → bytes = c.encode a ++ rest

namespace Canonical

variable {α β : Type} {a : Codec α} {b : Codec β}

theorem number (width : Nat) : (Codec.number width).Canonical :=
  fun _ _ _ h => (readLittleEndian_cases h).2

theorem via {there : β → α} {back : α → β} (h : a.Canonical)
    (hthere : ∀ bytes x rest, a.decode bytes = .ok (x, rest) → there (back x) = x) :
    (a.via there back).Canonical := by
  intro bytes y rest hdecode
  obtain ⟨⟨x, rest'⟩, hread, hend⟩ := exists_of_bind_eq_ok hdecode
  cases hend
  simpa only [Codec.via, hthere bytes x rest hread] using h bytes x rest hread

theorem pair (ha : a.Canonical) (hb : b.Canonical) : (a.pair b).Canonical := by
  intro bytes p rest hdecode
  obtain ⟨⟨x, rest'⟩, hfirst, hdecode⟩ := exists_of_bind_eq_ok hdecode
  obtain ⟨⟨y, rest''⟩, hsecond, hend⟩ := exists_of_bind_eq_ok hdecode
  cases hend
  rw [ha bytes x rest' hfirst, hb rest' y rest hsecond]
  exact (List.append_assoc ..).symm

theorem byte : Codec.byte.Canonical := by
  refine (number 1).via fun bytes n rest h => ?_
  exact Nat.mod_eq_of_lt (readLittleEndian_cases h).1

theorem word : Codec.word.Canonical := by
  refine (number 4).via fun bytes n rest h => ?_
  exact Nat.mod_eq_of_lt (readLittleEndian_cases h).1

theorem bool : Codec.bool.Canonical := by
  intro bytes x rest hdecode
  obtain ⟨⟨n, rest'⟩, hread, hdecode⟩ := exists_of_bind_eq_ok hdecode
  have hbytes := (readLittleEndian_cases hread).2
  dsimp only at hdecode
  split at hdecode
  · next hzero =>
    cases hdecode
    rw [hbytes, hzero]
    rfl
  · split at hdecode
    · next hone =>
      cases hdecode
      rw [hbytes, hone]
      rfl
    · cases hdecode

theorem option (h : a.Canonical) : (Codec.option a).Canonical := by
  intro bytes x rest hdecode
  obtain ⟨⟨n, rest'⟩, hread, hdecode⟩ := exists_of_bind_eq_ok hdecode
  have hbytes := (readLittleEndian_cases hread).2
  dsimp only at hdecode
  split at hdecode
  · next hzero =>
    cases hdecode
    rw [hbytes, hzero]
    rfl
  · split at hdecode
    · next hone =>
      obtain ⟨⟨y, rest''⟩, hvalue, hend⟩ := exists_of_bind_eq_ok hdecode
      cases hend
      rw [hbytes, hone, h _ _ _ hvalue]
      rfl
    · cases hdecode

theorem text : Codec.text.Canonical := by
  intro bytes s rest hdecode
  obtain ⟨⟨n, rest'⟩, hread, hdecode⟩ := exists_of_bind_eq_ok hdecode
  have hbytes := (readLittleEndian_cases hread).2
  dsimp only at hdecode
  by_cases hshort : (rest'.take n).length < n
  · rw [if_pos hshort] at hdecode
    cases hdecode
  · rw [if_neg hshort] at hdecode
    cases htext : Text.ofUtf8 (rest'.take n) with
    | error fault =>
      rw [htext] at hdecode
      cases hdecode
    | ok s' =>
      rw [htext] at hdecode
      cases hdecode
      have hlength : (rest'.take n).length = n := by
        rw [List.length_take] at hshort ⊢
        omega
      have hcontent := Text.toUtf8_of_ofUtf8 htext
      simp only [Codec.text, hcontent, hlength, List.append_assoc, List.take_append_drop]
      exact hbytes

/-! ### Lists -/

theorem readMany_cases (h : a.Canonical) {n : Nat} {bytes rest : Bytes} {xs : List α}
    (hread : readMany a n bytes = .ok (xs, rest)) :
    xs.length = n ∧ bytes = xs.flatMap a.encode ++ rest := by
  induction n generalizing bytes xs with
  | zero =>
    cases hread
    exact ⟨rfl, rfl⟩
  | succ n ih =>
    obtain ⟨⟨x, rest'⟩, hfirst, hread⟩ := exists_of_bind_eq_ok hread
    obtain ⟨⟨xs', rest''⟩, hothers, hend⟩ := exists_of_bind_eq_ok hread
    cases hend
    obtain ⟨hlength, hrest⟩ := ih hothers
    refine ⟨by rw [List.length_cons, hlength], ?_⟩
    rw [h bytes x rest' hfirst, hrest, List.flatMap_cons, List.append_assoc]

theorem list (h : a.Canonical) : (Codec.list a).Canonical := by
  intro bytes xs rest hdecode
  obtain ⟨⟨n, rest'⟩, hread, hmany⟩ := exists_of_bind_eq_ok hdecode
  obtain ⟨hlength, hrest⟩ := h.readMany_cases hmany
  rw [(readLittleEndian_cases hread).2, hrest, ← hlength]
  exact (List.append_assoc ..).symm

end Canonical

/-! ## Variants -/

section Variants

variable {α β : Type}

/-- Bytes that are read as a value of the variant are how the variant writes it,
    and what is left. -/
def Variant.Canonical (v : Variant α) : Prop :=
  ∀ bytes a rest, v.decode bytes = .ok (a, rest) →
    ∃ written, v.encode? a = some written ∧ bytes = written ++ rest

theorem Variant.Canonical.variant {c : Codec β} {carried? : α → Option β} {make : β → α}
    (h : c.Canonical) (hcarried : ∀ b, carried? (make b) = some b) :
    (Codec.variant c carried? make).Canonical := by
  intro bytes a rest hdecode
  obtain ⟨⟨b, rest'⟩, hread, hend⟩ := exists_of_bind_eq_ok hdecode
  cases hend
  exact ⟨c.encode b, by simp only [Codec.variant, hcarried, Option.map_some], h bytes b rest hread⟩

theorem Variant.Canonical.single [DecidableEq α] (value : α) :
    (Codec.single value).Canonical := by
  intro bytes a rest hdecode
  cases hdecode
  exact ⟨[], if_pos rfl, rfl⟩

/-- A value is written under the number of any variant that it is of, if it is of
    no other one. -/
theorem encodeVariant_of_getElem? {a : α} {vs : List (Variant α)} {v : Variant α} {i : Nat}
    {written : Bytes} (tag : Nat) (hone : vs.countP (fun v => (v.encode? a).isSome) ≤ 1)
    (hi : vs[i]? = some v) (hwritten : v.encode? a = some written) :
    encodeVariant a tag vs = word.encode (tag + i).toUInt32 ++ written := by
  induction vs generalizing tag i with
  | nil => cases hi
  | cons w vs ih =>
    cases i with
    | zero =>
      cases hi
      simp only [encodeVariant, hwritten, Nat.add_zero]
    | succ i =>
      rw [List.getElem?_cons_succ] at hi
      have hpos : 0 < vs.countP (fun v => (v.encode? a).isSome) :=
        List.countP_pos_iff.2 ⟨v, List.mem_of_getElem? hi, by rw [hwritten]; rfl⟩
      rw [List.countP_cons] at hone
      have hnone : w.encode? a = none := by
        cases hw : w.encode? a with
        | none => rfl
        | some bytes =>
          rw [hw, Option.isSome_some, if_pos rfl] at hone
          omega
      simp only [encodeVariant, hnone, ih (tag + 1) (by omega) hi, Nat.add_assoc, Nat.add_comm 1 i]

/-- Several variants are canonical together if no value is of two of them. -/
theorem Canonical.variants {vs : List (Variant α)}
    (hone : ∀ a, vs.countP (fun v => (v.encode? a).isSome) ≤ 1)
    (h : ∀ v ∈ vs, v.Canonical) : (Codec.variants vs).Canonical := by
  intro bytes a rest hdecode
  obtain ⟨⟨tag, rest'⟩, hread, hdecode⟩ := exists_of_bind_eq_ok hdecode
  dsimp only at hdecode
  split at hdecode
  · next v hv =>
    obtain ⟨written, hwritten, hrest⟩ := h v (List.mem_of_getElem? hv) rest' a rest hdecode
    have htag : (0 + tag.toNat).toUInt32 = tag := by
      rw [Nat.zero_add]
      exact UInt32.ofNat_toNat
    rw [word bytes tag rest' hread, hrest]
    simp only [Codec.variants, encodeVariant_of_getElem? 0 (hone a) hv hwritten, htag,
      List.append_assoc]
  · cases hdecode

end Variants

/-! ## The parts of modules -/

namespace Canonical

theorem span : Codec.span.Canonical :=
  (word.pair (word.pair (word.pair word))).via fun _ _ _ _ => rfl

theorem located {α : Type} {c : Codec α} (h : c.Canonical) : (Codec.located c).Canonical :=
  (h.pair span).via fun _ _ _ _ => rfl

theorem name : Codec.name.Canonical := text.located

theorem moduleName : Codec.moduleName.Canonical := (text.list.via fun _ _ _ _ => rfl).located

theorem moduleKind : Codec.moduleKind.Canonical := by
  refine variants (fun k => ?_) (by simp [Variant.Canonical.single])
  cases k <;> decide

theorem exposedItem : Codec.exposedItem.Canonical := by
  refine variants (fun i => ?_) ?_
  · cases i <;> exact Nat.le_refl 1
  · simp only [List.forall_mem_cons, List.not_mem_nil, false_implies, implies_true, and_true]
    exact ⟨.variant text fun _ => rfl, .variant text fun _ => rfl,
      .variant (text.pair bool) fun _ => rfl⟩

theorem exposing : Codec.exposing.Canonical := by
  refine variants (fun e => ?_) ?_
  · cases e <;> exact Nat.le_refl 1
  · simp only [List.forall_mem_cons, List.not_mem_nil, false_implies, implies_true, and_true]
    exact ⟨.variant span fun _ => rfl, .variant exposedItem.located.list fun _ => rfl⟩

theorem header : Codec.header.Canonical :=
  (moduleKind.pair (moduleName.pair (exposing.pair (bool.pair span)))).via fun _ _ _ _ => rfl

theorem import_ : Codec.import_.Canonical :=
  (moduleName.pair (name.option.pair (exposing.option.pair span))).via fun _ _ _ _ => rfl

theorem signature : Codec.signature.Canonical :=
  (name.pair (text.pair span)).via fun _ _ _ _ => rfl

theorem valueDeclaration : Codec.valueDeclaration.Canonical :=
  (text.located.option.pair (signature.option.pair (name.pair
    (text.located.list.pair (span.pair span))))).via fun _ _ _ _ => rfl

theorem aliasDeclaration : Codec.aliasDeclaration.Canonical :=
  (text.located.option.pair (name.pair (name.list.pair (text.pair span)))).via fun _ _ _ _ => rfl

theorem constructor : Codec.constructor.Canonical :=
  (name.pair (text.list.pair span)).via fun _ _ _ _ => rfl

theorem typeDeclaration : Codec.typeDeclaration.Canonical :=
  (text.located.option.pair (name.pair (name.list.pair (constructor.list.pair span)))).via
    fun _ _ _ _ => rfl

theorem portDeclaration : Codec.portDeclaration.Canonical :=
  (name.pair (text.pair span)).via fun _ _ _ _ => rfl

theorem associativity : Codec.associativity.Canonical := by
  refine variants (fun k => ?_) (by simp [Variant.Canonical.single])
  cases k <;> decide

theorem operatorDeclaration : Codec.operatorDeclaration.Canonical :=
  (associativity.pair (byte.pair (name.pair (name.pair span)))).via fun _ _ _ _ => rfl

theorem declaration : Codec.declaration.Canonical := by
  refine variants (fun d => ?_) ?_
  · cases d <;> exact Nat.le_refl 1
  · simp only [List.forall_mem_cons, List.not_mem_nil, false_implies, implies_true, and_true]
    exact ⟨.variant valueDeclaration fun _ => rfl, .variant aliasDeclaration fun _ => rfl,
      .variant typeDeclaration fun _ => rfl, .variant portDeclaration fun _ => rfl,
      .variant operatorDeclaration fun _ => rfl⟩

theorem tree : Codec.tree.Canonical :=
  (header.pair (text.located.option.pair (import_.list.pair (declaration.list.pair span)))).via
    fun _ _ _ _ => rfl

end Canonical

end Codec

/-! ## Entries -/

namespace Entry

theorem codec_canonical : codec.Canonical :=
  (Codec.Canonical.word.pair (Codec.Canonical.text.pair .tree)).via fun _ _ _ _ => rfl

/-- What is read as an entry begins with the bytes of that entry. -/
theorem prefix_of_ofBytes {e : Entry} {bytes : Bytes} (h : ofBytes bytes = .ok e) :
    e.toBytes <+: bytes := by
  unfold ofBytes at h
  cases hdecode : codec.decode bytes with
  | error fault =>
    rw [hdecode] at h
    cases h
  | ok r =>
    rw [hdecode] at h
    cases h
    exact ⟨r.2, (codec_canonical bytes r.1 r.2 hdecode).symm⟩

/-- An entry is read off exactly those bytes that begin with its own. -/
theorem ofBytes_eq_ok_iff {e : Entry} (h : e.toBytes.length < 2 ^ 64) {bytes : Bytes} :
    ofBytes bytes = .ok e ↔ e.toBytes <+: bytes := by
  constructor
  · exact prefix_of_ofBytes
  · rintro ⟨rest, rfl⟩
    exact ofBytes_toBytes_append h rest

/-- An entry that is read off a part of another one's bytes is that entry, and the
    part is all of them. -/
theorem eq_of_prefix_of_ofBytes {e e' : Entry} {cut : Bytes} (h : e.toBytes.length < 2 ^ 64)
    (hcut : cut <+: e.toBytes) (hread : ofBytes cut = .ok e') : e' = e ∧ cut = e.toBytes := by
  have hprefix : e'.toBytes <+: e.toBytes := (prefix_of_ofBytes hread).trans hcut
  have hlength := hprefix.length_le
  have hself := (ofBytes_eq_ok_iff h).2 (List.prefix_refl e.toBytes)
  rw [(ofBytes_eq_ok_iff (by omega)).2 hprefix, Except.ok.injEq] at hself
  subst hself
  exact ⟨rfl, hcut.eq_of_length_le (prefix_of_ofBytes hread).length_le⟩

/-- **Entries have one encoding each, and none begins another.** An entry is read
    off the bytes of it, whatever follows; what is read as an entry begins with its
    bytes; bytes that were cut off are not read; and no two entries have the same
    bytes. That bytes number fewer than 2 ^ 64 is no more than that a machine can
    hold them. -/
theorem toBytes_canonical_prefixFree :
    (∀ (e : Entry) rest, e.toBytes.length < 2 ^ 64 → ofBytes (e.toBytes ++ rest) = .ok e) ∧
      (∀ (e : Entry) bytes, ofBytes bytes = .ok e → e.toBytes <+: bytes) ∧
      (∀ (e : Entry) cut, e.toBytes.length < 2 ^ 64 → cut <+: e.toBytes → cut ≠ e.toBytes →
        ∃ fault, ofBytes cut = .error fault) ∧
      (∀ e e' : Entry, e.toBytes.length < 2 ^ 64 → e'.toBytes = e.toBytes → e' = e) := by
  refine ⟨fun e rest h => ofBytes_toBytes_append h rest, fun e bytes => prefix_of_ofBytes,
    fun e cut h hcut hne => ?_, fun e e' h heq => ?_⟩
  · cases hread : ofBytes cut with
    | error fault => exact ⟨fault, rfl⟩
    | ok e' => exact absurd (eq_of_prefix_of_ofBytes h hcut hread).2 hne
  · have hread : ofBytes e'.toBytes = .ok e' :=
      (ofBytes_eq_ok_iff (heq ▸ h)).2 (List.prefix_refl _)
    rw [heq] at hread
    exact (eq_of_prefix_of_ofBytes h (List.prefix_refl _) hread).1

/-- An entry with a declaration of every kind. -/
def everyKind : Entry :=
  let place : Span := ⟨7, 9, 2, 3⟩
  let name (text : String) : Name := ⟨text, place⟩
  { version := 3
    contentHash := "né"
    tree :=
      { header := ⟨.port, ⟨⟨["A", "B"]⟩, place⟩, .listed
          [⟨.value "a", place⟩, ⟨.operator "+", place⟩, ⟨.type "T" true, place⟩], false, place⟩
        documentation := some ⟨" ü ", place⟩
        imports := [⟨⟨⟨["C"]⟩, place⟩, some (name "D"), some (.all place), place⟩]
        declarations :=
          [.value ⟨none, some ⟨name "a", "Int", place⟩, name "a", [⟨"x", place⟩], place, place⟩,
            .synonym ⟨none, name "S", [name "t"], "List t", place⟩,
            .type ⟨some ⟨"", place⟩, name "T", [], [⟨name "T", ["Int"], place⟩], place⟩,
            .port ⟨name "p", "Int -> Cmd m", place⟩,
            .operator ⟨.non, 4, name "+", name "a", place⟩]
        span := place } }

theorem everyKind_canonical_prefixFree :
    everyKind.toBytes.length < 2 ^ 64 ∧ ofBytes (everyKind.toBytes ++ [0xFF]) = .ok everyKind ∧
      (∃ fault, ofBytes everyKind.toBytes.dropLast = .error fault) ∧
      (∀ e : Entry, e.toBytes = everyKind.toBytes → e = everyKind) ∧
      ∀ e, ofBytes (everyKind.toBytes ++ [0xFF]) = .ok e →
        e.toBytes <+: everyKind.toBytes ++ [0xFF] := by
  have hlength : everyKind.toBytes.length < 2 ^ 64 := by decide +kernel
  have hcut : everyKind.toBytes.dropLast ≠ everyKind.toBytes := by decide +kernel
  obtain ⟨hread, hprefix, hrejected, hinjective⟩ := toBytes_canonical_prefixFree
  exact ⟨hlength, hread _ _ hlength, hrejected _ _ hlength (List.dropLast_prefix _) hcut,
    fun e => hinjective _ e hlength, fun e => hprefix e _⟩

end Entry

end ElmIntake
