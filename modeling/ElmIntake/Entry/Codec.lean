import ElmIntake.Text.Utf8

/-! # Codecs

    A **codec** writes values of a type as bytes and reads them back from the
    front of some bytes. Codecs of large types are put together from those of
    their parts, so that what holds of the parts carries over to the whole.

    Integers are little-endian and of fixed width, a text or a list is preceded
    by its length in 64 bits, and a value of several variants by the number of
    its variant in 32 bits. -/

namespace ElmIntake

/-! ## Faults -/

/-- Why bytes cannot be read. -/
inductive DecodeFault where
  /-- The bytes end inside a number. -/
  | endInNumber
  /-- The bytes end inside a text. -/
  | endInText
  | badText (fault : Text.Utf8Fault)
  | badBool (found : Nat)
  | badOption (found : Nat)
  | badVariant (found : Nat) (count : Nat)
  deriving Repr, DecidableEq

/-- The wording of a fault. -/
def DecodeFault.message : DecodeFault → String
  | endInNumber => "io error: unexpected end of file"
  | endInText => "io error: "
  | badText fault => s!"string is not valid utf8: {fault}"
  | badBool found => s!"invalid u8 while decoding bool, expected 0 or 1, found {found}"
  | badOption found => s!"tag for enum is not valid, found {found}"
  | badVariant found count =>
    s!"invalid value: integer `{found}`, expected variant index 0 <= i < {count}"

/-- How to write a value as bytes, and to read one from the front of bytes. -/
structure Codec (α : Type) where
  encode : α → Bytes
  decode : Bytes → Except DecodeFault (α × Bytes)

namespace Codec

/-! ## Numbers -/

/-- The lowest `width` bytes of a number, least significant first. -/
def littleEndian : (width : Nat) → Nat → Bytes
  | 0, _ => []
  | width + 1, n => n.toUInt8 :: littleEndian width (n / 256)

/-- Reads a number of `width` bytes. -/
def readLittleEndian : (width : Nat) → Bytes → Except DecodeFault (Nat × Bytes)
  | 0, bytes => .ok (0, bytes)
  | _ + 1, [] => .error .endInNumber
  | width + 1, b :: bytes => do
    let (n, rest) ← readLittleEndian width bytes
    return (b.toNat + 256 * n, rest)

/-- Numbers of `width` bytes. -/
def number (width : Nat) : Codec Nat := ⟨littleEndian width, readLittleEndian width⟩

/-- Writes and reads a value by way of another one. -/
def via {α β : Type} (c : Codec α) (there : β → α) (back : α → β) : Codec β where
  encode b := c.encode (there b)
  decode bytes := do
    let (a, rest) ← c.decode bytes
    return (back a, rest)

/-- Single bytes. -/
def byte : Codec UInt8 := (number 1).via UInt8.toNat Nat.toUInt8

/-- Words of 32 bits. -/
def word : Codec UInt32 := (number 4).via UInt32.toNat Nat.toUInt32

/-- Lengths, in 64 bits. -/
def length : Codec Nat := number 8

/-! ## Texts and truth values -/

/-- Texts in UTF-8. -/
def text : Codec String where
  encode s := length.encode (Text.toUtf8 s).length ++ Text.toUtf8 s
  decode bytes := do
    let (n, rest) ← length.decode bytes
    -- The length may be any number, whatever is left of the bytes.
    let content := rest.take n
    if content.length < n then throw .endInText
    match Text.ofUtf8 content with
    | .ok s => return (s, rest.drop n)
    | .error fault => throw (.badText fault)

/-- Truth values, as one byte. -/
def bool : Codec Bool where
  encode b := [if b then 1 else 0]
  decode bytes := do
    let (n, rest) ← (number 1).decode bytes
    if n = 0 then return (false, rest)
    else if n = 1 then return (true, rest)
    else throw (.badBool n)

/-! ## Several values -/

/-- A value and then another one. -/
def pair {α β : Type} (a : Codec α) (b : Codec β) : Codec (α × β) where
  encode p := a.encode p.1 ++ b.encode p.2
  decode bytes := do
    let (x, rest) ← a.decode bytes
    let (y, rest) ← b.decode rest
    return ((x, y), rest)

/-- A value that may be absent, after a byte that says whether it is. -/
def option {α : Type} (c : Codec α) : Codec (Option α) where
  encode
    | none => [0]
    | some a => 1 :: c.encode a
  decode bytes := do
    let (n, rest) ← (number 1).decode bytes
    if n = 0 then return (none, rest)
    else if n = 1 then
      let (a, rest) ← c.decode rest
      return (some a, rest)
    else throw (.badOption n)

/-- Reads `n` values. -/
def readMany {α : Type} (c : Codec α) : (n : Nat) → Bytes → Except DecodeFault (List α × Bytes)
  | 0, bytes => .ok ([], bytes)
  | n + 1, bytes => do
    let (a, rest) ← c.decode bytes
    let (as, rest) ← readMany c n rest
    return (a :: as, rest)

/-- Lists, after their length. -/
def list {α : Type} (c : Codec α) : Codec (List α) where
  encode as := length.encode as.length ++ as.flatMap c.encode
  decode bytes := do
    let (n, rest) ← length.decode bytes
    readMany c n rest

/-! ## Variants -/

/-- One variant of a type: how to write the values that are of it, and to read
    one. -/
structure Variant (α : Type) where
  encode? : α → Option Bytes
  decode : Bytes → Except DecodeFault (α × Bytes)

/-- The variant of the values that carry a value of another type. -/
def variant {α β : Type} (c : Codec β) (carried? : α → Option β) (make : β → α) :
    Variant α where
  encode? a := (carried? a).map c.encode
  decode bytes := do
    let (b, rest) ← c.decode bytes
    return (make b, rest)

/-- The variant that is a single value. -/
def single {α : Type} [DecidableEq α] (value : α) : Variant α where
  encode? a := if a = value then some [] else none
  decode bytes := .ok (value, bytes)

/-- Writes a value by the first of the variants, numbered from `tag` on, that it
    is of. -/
def encodeVariant {α : Type} (a : α) (tag : Nat) : List (Variant α) → Bytes
  | [] => []
  | v :: vs =>
    match v.encode? a with
    | some bytes => word.encode tag.toUInt32 ++ bytes
    | none => encodeVariant a (tag + 1) vs

/-- A value of one of several variants. -/
def variants {α : Type} (vs : List (Variant α)) : Codec α where
  encode a := encodeVariant a 0 vs
  decode bytes := do
    let (tag, rest) ← word.decode bytes
    match vs[tag.toNat]? with
    | some v => v.decode rest
    | none => throw (.badVariant tag.toNat vs.length)

end Codec

end ElmIntake
