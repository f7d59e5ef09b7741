import ElmIntake.Text.Quoted
import ElmIntake.Text.Utf8

/-! # Content digests

    Contents are known by their BLAKE3 digest, written in hexadecimal. The
    digest cuts its input into **chunks** of 1024 bytes and these into blocks
    of 64; the blocks of a chunk are compressed one after the other into a
    chaining value, and the chaining values are joined in pairs, as the leaves
    of a binary tree whose left half is always a full one. -/

namespace ElmIntake.Digest

/-! ## Compression -/

/-- Eight words that stand for all input so far. -/
abbrev Chain := Vector UInt32 8

/-- A block of input, and the state of the compression function. -/
abbrev Block := Vector UInt32 16

/-- The chaining value to start from. -/
def initialChain : Chain :=
  #v[0x6A09E667, 0xBB67AE85, 0x3C6EF372, 0xA54FF53A,
     0x510E527F, 0x9B05688C, 0x1F83D9AB, 0x5BE0CD19]

/-- Where each word of a block goes between two rounds. -/
def permutation : Vector (Fin 16) 16 :=
  #v[2, 6, 3, 10, 7, 0, 4, 13, 1, 11, 12, 5, 9, 14, 15, 8]

/-- Marks the first block of a chunk. -/
def chunkStart : UInt32 := 1

/-- Marks the last block of a chunk. -/
def chunkEnd : UInt32 := 2

/-- Marks the block that joins two subtrees. -/
def parentNode : UInt32 := 4

/-- Marks the last compression of all. -/
def rootNode : UInt32 := 8

/-- Rotates a word to the right by fewer than 32 bits. -/
def rotate (w : UInt32) (bits : UInt32) : UInt32 := (w >>> bits) ||| (w <<< (32 - bits))

/-- Mixes two words of input into one column or diagonal of the state. -/
def mix (v : Block) (a b c d : Fin 16) (x y : UInt32) : Block :=
  let va := v[a] + v[b] + x
  let vd := rotate (v[d] ^^^ va) 16
  let vc := v[c] + vd
  let vb := rotate (v[b] ^^^ vc) 12
  let va := va + vb + y
  let vd := rotate (vd ^^^ va) 8
  let vc := vc + vd
  let vb := rotate (vb ^^^ vc) 7
  (((v.set a va).set b vb).set c vc).set d vd

/-- One round: all columns, then all diagonals. -/
def mixAll (v m : Block) : Block :=
  let v := mix v 0 4 8 12 m[0] m[1]
  let v := mix v 1 5 9 13 m[2] m[3]
  let v := mix v 2 6 10 14 m[4] m[5]
  let v := mix v 3 7 11 15 m[6] m[7]
  let v := mix v 0 5 10 15 m[8] m[9]
  let v := mix v 1 6 11 12 m[10] m[11]
  let v := mix v 2 7 8 13 m[12] m[13]
  mix v 3 4 9 14 m[14] m[15]

/-- As many rounds as asked for, with the block permuted between them. -/
def rounds : Nat → Block → Block → Block
  | 0, v, _ => v
  | n + 1, v, m => rounds n (mixAll v m) (permutation.map (m[·]))

/-- A compression that is still to be done: which flags it gets besides depends
    on its place in the tree. -/
structure Pending where
  chain : Chain
  block : Block
  counter : UInt64
  /-- Number of bytes in the block. -/
  size : UInt32
  flags : UInt32

/-- Compresses a block into a chaining value. -/
def Pending.compress (p : Pending) (flags : UInt32) : Chain :=
  let h := p.chain
  let v : Block :=
    #v[h[0], h[1], h[2], h[3], h[4], h[5], h[6], h[7],
       initialChain[0], initialChain[1], initialChain[2], initialChain[3],
       p.counter.toUInt32, (p.counter >>> 32).toUInt32, p.size, p.flags ||| flags]
  let v := rounds 7 v p.block
  Vector.ofFn fun i : Fin 8 => v[i.val] ^^^ v[i.val + 8]

/-! ## Chunks and the tree -/

/-- The little-endian word at a place of some bytes; bytes beyond the end are
    zero. -/
def wordAt (bytes : Array UInt8) (i : Nat) : UInt32 :=
  let byte (k : Nat) : UInt32 := (bytes.getD (4 * i + k) 0).toUInt32
  byte 0 ||| (byte 1 <<< 8) ||| (byte 2 <<< 16) ||| (byte 3 <<< 24)

/-- The block of at most 64 bytes, filled up with zeros. -/
def blockOf (bytes : Array UInt8) : Block := Vector.ofFn fun i => wordAt bytes i

/-- Compresses all blocks of a chunk but the last one, which is left pending.
    `flags` are those of the first block. -/
def chunk (counter : UInt64) (chain : Chain) (flags : UInt32) (bytes : Bytes) : Pending :=
  let head := (bytes.take 64).toArray
  let pending : Pending := ⟨chain, blockOf head, counter, head.size.toUInt32, flags⟩
  -- A full last block is left pending, too.
  if _h : bytes.length ≤ 64 then { pending with flags := flags ||| chunkEnd }
  else chunk counter (pending.compress 0) 0 (bytes.drop 64)
termination_by bytes.length
decreasing_by simp only [List.length_drop]; omega

/-- The chunks of the input, numbered from `counter` on. There is one even if
    there is no input. -/
def chunks (counter : UInt64) (bytes : Bytes) : List Pending :=
  let here := chunk counter initialChain chunkStart (bytes.take 1024)
  if h : bytes.drop 1024 = [] then [here] else here :: chunks (counter + 1) (bytes.drop 1024)
termination_by bytes.length
decreasing_by
  rw [List.drop_eq_nil_iff] at h
  simp only [List.length_drop]
  omega

/-- The node above two subtrees. -/
def join (left right : Chain) : Pending :=
  ⟨initialChain, left ++ right, 0, 64, parentNode⟩

/-- The number of leaves to the left, of at least two: the greatest power of two
    that leaves some for the right. -/
def leftLeaves (leaves : Nat) : Nat := Nat.pow 2 (leaves - 1).log2

theorem leftLeaves_bounds {n : Nat} (h : 2 ≤ n) : 0 < leftLeaves n ∧ leftLeaves n < n := by
  have hle : leftLeaves n ≤ n - 1 := Nat.log2_self_le (n := n - 1) (by omega)
  exact ⟨Nat.two_pow_pos _, by omega⟩

/-- The root of the tree over some leaves. -/
def tree (leaves : List Pending) : Pending :=
  match leaves with
  | [] => ⟨initialChain, Vector.replicate 16 0, 0, 0, 0⟩
  | [leaf] => leaf
  | a :: b :: rest =>
    let leaves := a :: b :: rest
    let n := leftLeaves leaves.length
    join ((tree (leaves.take n)).compress 0) ((tree (leaves.drop n)).compress 0)
termination_by leaves.length
decreasing_by
  all_goals
    have := leftLeaves_bounds (n := (a :: b :: rest).length) (by simp)
    simp only [List.length_take, List.length_drop]
    omega

/-- The bytes of a word, least significant first. -/
def wordBytes (w : UInt32) : Bytes :=
  [w.toUInt8, (w >>> 8).toUInt8, (w >>> 16).toUInt8, (w >>> 24).toUInt8]

/-- The digest of some bytes, 32 bytes long. -/
def digest (bytes : Bytes) : Bytes :=
  ((tree (chunks 0 bytes)).compress rootNode).toList.flatMap wordBytes

/-! ## Written digests -/

/-- Two hexadecimal digits. -/
def hexByte (b : UInt8) : List Char :=
  [Nat.digitChar (b.toNat / 16), Nat.digitChar (b.toNat % 16)]

/-- The digest in 64 lower case hexadecimal digits. -/
def hex (bytes : Bytes) : String := String.ofList ((digest bytes).flatMap hexByte)

end ElmIntake.Digest
