import Mathlib.Algebra.Group.Int.Defs
import Mathlib.Algebra.Group.Nat.Defs

/-! # Checked runs

    What a reader does on a machine: its words have so many bits, its lists are
    looked up by index and its loops may fail to end. Here each such step is
    made with a check, and a run in which a check fails ends in a **fault**.

    A fault is not a report. A report is an answer about the source that is read;
    a fault is a defect of the reader, and no reader of this library has one:
    where its checked form is shown to do what the reader does, no check fails.

    A loop is made of **rounds**. Each round but the last one must leave less to
    be read than there was before it, or the loop stalls. -/

namespace ElmIntake

/-! ## Faults -/

/-- What can go wrong in a step of a machine. -/
inductive Fault where
  /-- An index or a range that is not within its list. -/
  | outOfBounds
  /-- A range of a text that begins or ends within a character. -/
  | splitCharacter
  /-- A number too large for its word. -/
  | overflow
  /-- A number below the least one of its word. -/
  | underflow
  /-- A number that loses bits as it is put into a smaller word. -/
  | truncated
  /-- A round of a loop that takes nothing. -/
  | stalled
  deriving Repr, DecidableEq

/-- How a run ends before it has a value. -/
inductive Halt (ε : Type) where
  | fault (f : Fault)
  | report (e : ε)
  deriving Repr, DecidableEq

/-- A run with its checks, which has a value unless it halts. -/
abbrev Checked (ε α : Type) := Except (Halt ε) α

/-- A checked run with a state of its own. -/
abbrev Machine (σ ε α : Type) := StateT σ (Except (Halt ε)) α

namespace Checked

variable {ε α : Type}

theorem bind_ok {β : Type} {c : Checked ε α} {f : α → Checked ε β} {a : α} (h : c = .ok a) :
    (c >>= f) = f a := by
  rw [h]
  rfl

/-! ## Numbers -/

/-- Puts a number into a word of 64 bits. -/
def word (n : Nat) : Checked ε Nat :=
  if n < 2 ^ 64 then .ok n else .error (.fault .overflow)

/-- Puts a number into a word of 32 bits. -/
def halfWord (n : Nat) : Checked ε Nat :=
  if n < 2 ^ 32 then .ok n else .error (.fault .overflow)

/-- Puts a number into a word of 32 bits, one of which is for its sign. -/
def signed (n : Int) : Checked ε Int :=
  if n < 2 ^ 31 then
    if -2 ^ 31 ≤ n then .ok n else .error (.fault .underflow)
  else .error (.fault .overflow)

/-- Takes one number from another, both without sign. -/
def minus (a b : Nat) : Checked ε Nat :=
  if b ≤ a then .ok (a - b) else .error (.fault .underflow)

/-- Puts a word of 64 bits into one of 32. -/
def narrow (n : Nat) : Checked ε UInt32 :=
  if n < 2 ^ 32 then .ok n.toUInt32 else .error (.fault .truncated)

theorem word_eq {n : Nat} (h : n < 2 ^ 64) : word (ε := ε) n = .ok n := if_pos h

theorem halfWord_eq {n : Nat} (h : n < 2 ^ 32) : halfWord (ε := ε) n = .ok n := if_pos h

theorem signed_eq {n : Int} (hlow : -2 ^ 31 ≤ n) (hhigh : n < 2 ^ 31) :
    signed (ε := ε) n = .ok n := by
  unfold signed
  rw [if_pos hhigh, if_pos hlow]

theorem minus_eq {a b : Nat} (h : b ≤ a) : minus (ε := ε) a b = .ok (a - b) := if_pos h

theorem narrow_eq {n : Nat} (h : n < 2 ^ 32) : narrow (ε := ε) n = .ok n.toUInt32 := if_pos h

/-! ## Lists and texts -/

/-- The element at an index, which must be there. -/
def fetch (xs : List α) (i : Nat) : Checked ε α :=
  match xs[i]? with
  | some x => .ok x
  | none => .error (.fault .outOfBounds)

/-- The elements from one index up to another, which must be in this order and
    within the list. -/
def slice (xs : List α) (i j : Nat) : Checked ε (List α) :=
  if i ≤ j ∧ j ≤ xs.length then .ok ((xs.take j).drop i) else .error (.fault .outOfBounds)

/-- The elements from an index on. -/
def sliceFrom (xs : List α) (i : Nat) : Checked ε (List α) := slice xs i xs.length

/-- The text behind its first `n` bytes, which must be whole characters. -/
def textFrom : (n : Nat) → List Char → Checked ε (List Char)
  | 0, cs => .ok cs
  | _ + 1, [] => .error (.fault .outOfBounds)
  | n + 1, c :: cs =>
    if c.utf8Size ≤ n + 1 then textFrom (n + 1 - c.utf8Size) cs
    else .error (.fault .splitCharacter)

theorem fetch_eq {xs : List α} {i : Nat} {x : α} (h : xs[i]? = some x) :
    fetch (ε := ε) xs i = .ok x := by
  unfold fetch
  rw [h]

theorem slice_eq (before within after : List α) :
    slice (ε := ε) (before ++ within ++ after) before.length (before.length + within.length) =
      .ok within := by
  unfold slice
  have hbounds : before.length ≤ before.length + within.length ∧
      before.length + within.length ≤ (before ++ within ++ after).length := by
    simp only [List.length_append]
    omega
  rw [if_pos hbounds, ← List.length_append, List.take_left, List.drop_left]

theorem sliceFrom_eq (before after : List α) :
    sliceFrom (ε := ε) (before ++ after) before.length = .ok after := by
  unfold sliceFrom
  have hslice := slice_eq (ε := ε) before after []
  rwa [List.append_nil, ← List.length_append] at hslice

/-- The elements before one of them. -/
theorem slice_before (before : List α) (x : α) (after : List α) :
    slice (ε := ε) (before ++ x :: after) 0 before.length = .ok before := by
  have hslice := slice_eq (ε := ε) [] before (x :: after)
  rwa [List.nil_append, List.length_nil, Nat.zero_add] at hslice

/-- The elements behind one of them. -/
theorem sliceFrom_behind (before : List α) (x : α) (after : List α) :
    sliceFrom (ε := ε) (before ++ x :: after) (before.length + 1) = .ok after := by
  have hslice := sliceFrom_eq (ε := ε) (before ++ [x]) after
  rwa [List.length_append, List.append_assoc, List.singleton_append] at hslice

/-- One of the elements. -/
theorem fetch_behind (before : List α) (x : α) (after : List α) :
    fetch (ε := ε) (before ++ x :: after) before.length = .ok x := by
  apply fetch_eq
  rw [List.getElem?_append_right (Nat.le_refl _), Nat.sub_self]
  rfl

end Checked

/-! ## Rounds -/

/-- What a round of a loop comes to: another one, or the end. -/
inductive Round (ρ α : Type) where
  | again (r : ρ)
  | done (a : α)

namespace Machine

variable {σ ε ρ α β : Type}

/-- A step that leaves the state alone. -/
def check (c : Checked ε α) : Machine σ ε α := fun s => c.map (·, s)

/-- Goes through the rounds of a loop, which pass `r` on from one to the next;
    `left` is how much is left to be read. -/
def rounds (left : σ → Nat) (body : ρ → Machine σ ε (Round ρ α)) (r : ρ) (s : σ) :
    Checked ε (α × σ) :=
  match (body r).run s with
  | .error halt => .error halt
  | .ok (.done a, s') => .ok (a, s')
  | .ok (.again r', s') =>
    if _h : left s' < left s then rounds left body r' s' else .error (.fault .stalled)
termination_by left s

/-- A loop, from its first round on. -/
def loop (left : σ → Nat) (body : ρ → Machine σ ε (Round ρ α)) (r : ρ) : Machine σ ε α :=
  fun s => rounds left body r s

variable {left : σ → Nat} {body : ρ → Machine σ ε (Round ρ α)} {r r' : ρ} {s s' : σ}

theorem loop_done {a : α} (h : (body r).run s = .ok (.done a, s')) :
    (loop left body r).run s = .ok (a, s') := by
  change rounds left body r s = .ok (a, s')
  rw [rounds, h]

theorem loop_again (h : (body r).run s = .ok (.again r', s')) (hleft : left s' < left s) :
    (loop left body r).run s = (loop left body r').run s' := by
  change rounds left body r s = rounds left body r' s'
  rw [rounds, h]
  simp only [hleft, dite_true]

theorem loop_halt {halt : Halt ε} (h : (body r).run s = .error halt) :
    (loop left body r).run s = .error halt := by
  change rounds left body r s = .error halt
  rw [rounds, h]

/-! ## Steps one after the other -/

/-- Two steps of which the first one has a value. -/
theorem run_bind_ok {m : Machine σ ε α} {f : α → Machine σ ε β} {a : α}
    (h : m.run s = .ok (a, s')) : (m >>= f).run s = (f a).run s' := by
  rw [StateT.run_bind, h]
  rfl

/-- Two steps of which the first one halts. -/
theorem run_bind_error {m : Machine σ ε α} {f : α → Machine σ ε β} {halt : Halt ε}
    (h : m.run s = .error halt) : (m >>= f).run s = .error halt := by
  rw [StateT.run_bind, h]
  rfl

/-- A loop that goes on, and then another step. -/
theorem run_bind_again {f : α → Machine σ ε β} (h : (body r).run s = .ok (.again r', s'))
    (hleft : left s' < left s) :
    (loop left body r >>= f).run s = (loop left body r' >>= f).run s' := by
  rw [StateT.run_bind, loop_again h hleft, ← StateT.run_bind]

theorem run_check {c : Checked ε α} {a : α} (h : c = .ok a) :
    (check c : Machine σ ε α).run s = .ok (a, s) := by
  rw [h]
  rfl

end Machine

end ElmIntake
