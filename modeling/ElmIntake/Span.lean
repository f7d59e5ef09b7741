/-! # Places in a source file

    A **position** is a place between two characters, kept as the number of
    bytes before it together with its line and column. A **span** is a range
    of bytes with the line and column of its start, in 32-bit words: the form
    in which places are reported and stored. -/

namespace ElmIntake

/-! ## Spans -/

/-- A byte range and the line and column of its start, both counted from 1. -/
structure Span where
  start : UInt32
  stop : UInt32
  line : UInt32
  column : UInt32
  deriving Repr, DecidableEq, Inhabited

namespace Span

/-- The span of what has no place in any source. -/
def dummy : Span := ⟨0, 0, 0, 0⟩

/-- The smallest range that covers both spans, placed where the earlier one
    starts. -/
def combine (a b : Span) : Span :=
  let first := if a.start ≤ b.start then a else b
  ⟨min a.start b.start, max a.stop b.stop, first.line, first.column⟩

/-- Number of bytes covered; none if the range runs backwards. -/
def size (s : Span) : UInt32 := if s.start ≤ s.stop then s.stop - s.start else 0

/-- Does the span cover no byte? -/
def isEmpty (s : Span) : Bool := s.size == 0

/-- The place of a span as `line:column`. -/
protected def toString (s : Span) : String := s!"{s.line}:{s.column}"

instance : ToString Span := ⟨Span.toString⟩

end Span

/-! ## Positions -/

/-- A place in a source: the bytes before it, its line and its column. -/
structure Position where
  offset : Nat
  line : Nat
  column : Nat
  deriving Repr, DecidableEq

namespace Position

/-- Where every source begins. -/
def start : Position := ⟨0, 1, 1⟩

/-- The position after the character `c`. Only a line feed ends a line. -/
def advance (p : Position) (c : Char) : Position :=
  if c = '\n' then ⟨p.offset + c.utf8Size, p.line + 1, 1⟩
  else ⟨p.offset + c.utf8Size, p.line, p.column + 1⟩

/-- The position after a stretch of text. -/
def past (p : Position) (text : List Char) : Position := text.foldl advance p

@[simp] theorem past_nil (p : Position) : p.past [] = p := rfl

@[simp] theorem past_cons (p : Position) (c : Char) (text : List Char) :
    p.past (c :: text) = (p.advance c).past text := rfl

@[simp] theorem past_append (p : Position) (s t : List Char) :
    p.past (s ++ t) = (p.past s).past t := List.foldl_append

/-- The span from one position to a later one. -/
def spanTo (p q : Position) : Span :=
  ⟨p.offset.toUInt32, q.offset.toUInt32, p.line.toUInt32, p.column.toUInt32⟩

end Position

end ElmIntake
