import ElmIntake.Entry
import ElmIntake.Proofs.Text.Utf8

/-! # Reading stored values back

    A codec is **faithful** if what it writes is read back, whatever bytes
    follow. Faithful codecs are put together from faithful ones, up to that of
    entries.

    Lengths are written in 64 bits, so a value whose encoding had 2 ^ 64 bytes
    or more would not come back. The bound is on the encoding as a whole: the
    lengths inside it are never greater than its own. -/

namespace ElmIntake

namespace Codec

/-! ## Numbers -/

theorem readLittleEndian_littleEndian (width : Nat) {n : Nat} (rest : Bytes)
    (h : n < 256 ^ width) :
    readLittleEndian width (littleEndian width n ++ rest) = .ok (n, rest) := by
  induction width generalizing n with
  | zero =>
    obtain rfl : n = 0 := by omega
    rfl
  | succ width ih =>
    have hdiv : n / 256 < 256 ^ width := by
      rw [Nat.pow_succ] at h
      omega
    have hbyte : n.toUInt8.toNat = n % 256 := by simp
    simp only [littleEndian, List.cons_append, readLittleEndian, ih hdiv, bind, Except.bind,
      pure, Except.pure, hbyte]
    congr 2
    omega

theorem decode_length {n : Nat} (rest : Bytes) (h : n < 2 ^ 64) :
    length.decode (length.encode n ++ rest) = .ok (n, rest) :=
  readLittleEndian_littleEndian 8 rest (by omega)

/-! ## Faithful codecs -/

/-- What the codec writes is at least one byte long, and is read back from the
    front of any bytes. -/
structure Faithful {α : Type} (c : Codec α) : Prop where
  encode_ne_nil : ∀ a, c.encode a ≠ []
  decode_encode : ∀ a rest, (c.encode a).length < 2 ^ 64 →
    c.decode (c.encode a ++ rest) = .ok (a, rest)

namespace Faithful

variable {α β : Type} {a : Codec α} {b : Codec β}

theorem via {there : β → α} {back : α → β} (h : a.Faithful) (hback : ∀ x, back (there x) = x) :
    (a.via there back).Faithful where
  encode_ne_nil x := h.encode_ne_nil _
  decode_encode x rest hlen := by
    simp only [Codec.via, h.decode_encode _ rest hlen, bind, Except.bind, pure, Except.pure, hback]

theorem pair (ha : a.Faithful) (hb : b.Faithful) : (a.pair b).Faithful where
  encode_ne_nil p := by simp [Codec.pair, ha.encode_ne_nil]
  decode_encode p rest hlen := by
    have hparts : (a.encode p.1).length + (b.encode p.2).length < 2 ^ 64 := by
      simpa [Codec.pair] using hlen
    simp only [Codec.pair, List.append_assoc, ha.decode_encode p.1 _ (by omega),
      hb.decode_encode p.2 rest (by omega), bind, Except.bind, pure, Except.pure]

theorem byte : Codec.byte.Faithful where
  encode_ne_nil n := by simp [Codec.byte, Codec.via, number, littleEndian]
  decode_encode n rest _ := by
    simp [Codec.byte, Codec.via, number, readLittleEndian_littleEndian 1 rest n.toNat_lt,
      bind, Except.bind, pure, Except.pure]

theorem word : Codec.word.Faithful where
  encode_ne_nil n := by simp [Codec.word, Codec.via, number, littleEndian]
  decode_encode n rest _ := by
    simp [Codec.word, Codec.via, number, readLittleEndian_littleEndian 4 rest n.toNat_lt,
      bind, Except.bind, pure, Except.pure]

theorem bool : Codec.bool.Faithful where
  encode_ne_nil x := by simp [Codec.bool]
  decode_encode x rest _ := by cases x <;> rfl

theorem option (h : a.Faithful) : (Codec.option a).Faithful where
  encode_ne_nil x := by cases x <;> simp [Codec.option]
  decode_encode x rest hlen := by
    cases x with
    | none => rfl
    | some x =>
      have hinner : (a.encode x).length < 2 ^ 64 := by
        simp only [Codec.option, List.length_cons] at hlen
        omega
      simp [Codec.option, number, readLittleEndian, h.decode_encode x rest hinner, bind,
        Except.bind, pure, Except.pure]

theorem text : Codec.text.Faithful where
  encode_ne_nil s := by simp [Codec.text, Codec.length, number, littleEndian]
  decode_encode s rest hlen := by
    have hbytes : (Text.toUtf8 s).length < 2 ^ 64 := by
      simp only [Codec.text, List.length_append] at hlen
      omega
    simp [Codec.text, decode_length _ hbytes, Text.ofUtf8_toUtf8, bind, Except.bind, pure,
      Except.pure]

/-! ### Lists -/

theorem readMany_flatMap (h : a.Faithful) (xs : List α) (rest : Bytes)
    (hlen : (xs.flatMap a.encode).length < 2 ^ 64) :
    readMany a xs.length (xs.flatMap a.encode ++ rest) = .ok (xs, rest) := by
  induction xs with
  | nil => rfl
  | cons x xs ih =>
    rw [List.flatMap_cons, List.length_append] at hlen
    simp only [List.flatMap_cons, List.append_assoc, List.length_cons, readMany,
      h.decode_encode x _ (by omega), ih (by omega), bind, Except.bind, pure, Except.pure]

/-- There are no more values than bytes, as each value takes one at least. -/
theorem length_le_flatMap (h : a.Faithful) (xs : List α) :
    xs.length ≤ (xs.flatMap a.encode).length := by
  induction xs with
  | nil => exact Nat.zero_le _
  | cons x xs ih =>
    have := List.length_pos_iff.2 (h.encode_ne_nil x)
    rw [List.flatMap_cons, List.length_append, List.length_cons]
    omega

theorem list (h : a.Faithful) : (Codec.list a).Faithful where
  encode_ne_nil xs := by simp [Codec.list, Codec.length, number, littleEndian]
  decode_encode xs rest hlen := by
    have hitems : (xs.flatMap a.encode).length < 2 ^ 64 := by
      simp only [Codec.list, List.length_append] at hlen
      omega
    have hcount := Nat.lt_of_le_of_lt (h.length_le_flatMap xs) hitems
    simp only [Codec.list, List.append_assoc, decode_length _ hcount,
      h.readMany_flatMap xs rest hitems, bind, Except.bind]

end Faithful

/-! ## Variants -/

/-- What a variant writes of its values is read back. -/
structure Variant.Faithful {α : Type} (v : Variant α) : Prop where
  decode_encode : ∀ a bytes rest, v.encode? a = some bytes → bytes.length < 2 ^ 64 →
    v.decode (bytes ++ rest) = .ok (a, rest)

section Variants

variable {α β : Type}

theorem Variant.Faithful.variant {c : Codec β} {carried? : α → Option β} {make : β → α}
    (h : c.Faithful) (hmake : ∀ a b, carried? a = some b → make b = a) :
    (Codec.variant c carried? make).Faithful where
  decode_encode a bytes rest henc hlen := by
    obtain ⟨b, hb, rfl⟩ := Option.map_eq_some_iff.1 henc
    simp [Codec.variant, h.decode_encode b rest hlen, hmake a b hb, bind, Except.bind, pure,
      Except.pure]

theorem Variant.Faithful.single [DecidableEq α] (value : α) : (Codec.single value).Faithful where
  decode_encode a bytes rest henc _ := by
    by_cases ha : a = value
    · simp only [Codec.single, if_pos ha, Option.some.injEq] at henc
      simp [Codec.single, ← henc, ha]
    · simp [Codec.single, if_neg ha] at henc

/-- A value is written under the number of the first variant that it is of. -/
theorem encodeVariant_eq {a : α} {vs : List (Variant α)} (tag : Nat)
    (h : ∃ v ∈ vs, (v.encode? a).isSome) :
    ∃ i v bytes, vs[i]? = some v ∧ v.encode? a = some bytes ∧
      encodeVariant a tag vs = word.encode (tag + i).toUInt32 ++ bytes := by
  induction vs generalizing tag with
  | nil => simp at h
  | cons v vs ih =>
    cases henc : v.encode? a with
    | some bytes => exact ⟨0, v, bytes, rfl, henc, by simp [encodeVariant, henc]⟩
    | none =>
      have hrest : ∃ w ∈ vs, (w.encode? a).isSome := by
        obtain ⟨w, hw, hsome⟩ := h
        rcases List.mem_cons.1 hw with rfl | hw
        · simp [henc] at hsome
        · exact ⟨w, hw, hsome⟩
      obtain ⟨i, w, bytes, hi, hwenc, heq⟩ := ih (tag + 1) hrest
      refine ⟨i + 1, w, bytes, hi, hwenc, ?_⟩
      rw [encodeVariant, henc]
      simp only [heq, Nat.add_assoc, Nat.add_comm 1 i]

/-- Several variants are faithful together if every value is of one of them. -/
theorem Faithful.variants {vs : List (Variant α)} (hcount : vs.length < 2 ^ 32)
    (hcover : ∀ a, ∃ v ∈ vs, (v.encode? a).isSome) (h : ∀ v ∈ vs, v.Faithful) :
    (Codec.variants vs).Faithful where
  encode_ne_nil a := by
    obtain ⟨i, v, bytes, _, _, heq⟩ := encodeVariant_eq 0 (hcover a)
    simp [Codec.variants, heq, word.encode_ne_nil]
  decode_encode a rest hlen := by
    obtain ⟨i, v, bytes, hi, henc, heq⟩ := encodeVariant_eq 0 (hcover a)
    have hlt : i < 2 ^ 32 := Nat.lt_trans (List.getElem?_eq_some_iff.1 hi).1 hcount
    have htag : i.toUInt32.toNat = i := Nat.mod_eq_of_lt hlt
    simp only [Codec.variants, heq, Nat.zero_add, List.length_append] at hlen
    have hword := Faithful.word.decode_encode i.toUInt32 (bytes ++ rest) (by omega)
    simp only [Codec.variants, heq, List.append_assoc, Nat.zero_add, hword, bind, Except.bind,
      htag, hi]
    exact (h v (List.mem_of_getElem? hi)).decode_encode a bytes rest henc (by omega)

end Variants

/-! ## The parts of modules -/

namespace Faithful

theorem span : Codec.span.Faithful := (word.pair (word.pair (word.pair word))).via fun _ => rfl

theorem located {α : Type} {c : Codec α} (h : c.Faithful) : (Codec.located c).Faithful :=
  (h.pair span).via fun _ => rfl

theorem name : Codec.name.Faithful := text.located

theorem moduleName : Codec.moduleName.Faithful := (text.list.via fun _ => rfl).located

theorem moduleKind : Codec.moduleKind.Faithful := by
  refine variants (by decide) (fun k => ?_) (by simp [Variant.Faithful.single])
  cases k <;> simp [single]

theorem exposedItem : Codec.exposedItem.Faithful := by
  refine variants (by decide) (fun i => ?_) ?_
  · cases i <;> simp [variant]
  · simp only [List.forall_mem_cons, List.not_mem_nil, false_implies, implies_true, and_true]
    refine ⟨.variant text ?_, .variant text ?_, .variant (text.pair bool) ?_⟩ <;>
      intro i _ hi <;> cases i <;> cases hi <;> rfl

theorem exposing : Codec.exposing.Faithful := by
  refine variants (by decide) (fun e => ?_) ?_
  · cases e <;> simp [variant]
  · simp only [List.forall_mem_cons, List.not_mem_nil, false_implies, implies_true, and_true]
    refine ⟨.variant span ?_, .variant exposedItem.located.list ?_⟩ <;>
      intro e _ he <;> cases e <;> cases he <;> rfl

theorem header : Codec.header.Faithful :=
  (moduleKind.pair (moduleName.pair (exposing.pair (bool.pair span)))).via fun _ => rfl

theorem import_ : Codec.import_.Faithful :=
  (moduleName.pair (name.option.pair (exposing.option.pair span))).via fun _ => rfl

theorem signature : Codec.signature.Faithful := (name.pair (text.pair span)).via fun _ => rfl

theorem valueDeclaration : Codec.valueDeclaration.Faithful :=
  (text.located.option.pair (signature.option.pair (name.pair
    (text.located.list.pair (span.pair span))))).via fun _ => rfl

theorem aliasDeclaration : Codec.aliasDeclaration.Faithful :=
  (text.located.option.pair (name.pair (name.list.pair (text.pair span)))).via fun _ => rfl

theorem constructor : Codec.constructor.Faithful :=
  (name.pair (text.list.pair span)).via fun _ => rfl

theorem typeDeclaration : Codec.typeDeclaration.Faithful :=
  (text.located.option.pair (name.pair (name.list.pair (constructor.list.pair span)))).via
    fun _ => rfl

theorem portDeclaration : Codec.portDeclaration.Faithful :=
  (name.pair (text.pair span)).via fun _ => rfl

theorem associativity : Codec.associativity.Faithful := by
  refine variants (by decide) (fun k => ?_) (by simp [Variant.Faithful.single])
  cases k <;> simp [single]

theorem operatorDeclaration : Codec.operatorDeclaration.Faithful :=
  (associativity.pair (byte.pair (name.pair (name.pair span)))).via fun _ => rfl

theorem declaration : Codec.declaration.Faithful := by
  refine variants (by decide) (fun d => ?_) ?_
  · cases d <;> simp [variant]
  · simp only [List.forall_mem_cons, List.not_mem_nil, false_implies, implies_true, and_true]
    refine ⟨.variant valueDeclaration ?_, .variant aliasDeclaration ?_, .variant typeDeclaration ?_,
      .variant portDeclaration ?_, .variant operatorDeclaration ?_⟩ <;>
      intro d _ hd <;> cases d <;> cases hd <;> rfl

theorem tree : Codec.tree.Faithful :=
  (header.pair (text.located.option.pair (import_.list.pair (declaration.list.pair span)))).via
    fun _ => rfl

end Faithful

end Codec

/-! ## Entries -/

namespace Entry

theorem codec_faithful : codec.Faithful :=
  (Codec.Faithful.word.pair (Codec.Faithful.text.pair .tree)).via fun _ => rfl

/-- An entry is read back from the front of any bytes that begin with its own. -/
theorem ofBytes_toBytes_append {e : Entry} (h : e.toBytes.length < 2 ^ 64) (rest : Bytes) :
    ofBytes (e.toBytes ++ rest) = .ok e := by
  rw [ofBytes, toBytes, codec_faithful.decode_encode e rest h]
  rfl

end Entry

end ElmIntake
