/-! # Paths

    A **path** is a text cut at slashes. What it means are its **parts**: empty
    stretches and dots stand for nothing, except for a dot at the very
    beginning, so `a//b`, `a/./b` and `a/b/` have the same parts and `./a` has
    one part more than `a`. Two paths are the same, are ordered and lie below
    one another by their parts; they are printed as they were given. -/

namespace ElmIntake

/-! ## Parts -/

/-- One step of a path. -/
inductive PathPart where
  /-- The slash that an absolute path starts with. -/
  | root
  /-- The dot that a path starts with. -/
  | here
  /-- Two dots: the directory above. -/
  | up
  | name (text : String)
  deriving Repr, DecidableEq, Inhabited

namespace PathPart

/-- How the part is written. -/
def text : PathPart → String
  | root => "/"
  | here => "."
  | up => ".."
  | name s => s

/-- Is the part a name? -/
def isName : PathPart → Bool
  | name _ => true
  | _ => false

/-- The place of the kinds of parts in the order. -/
def rank : PathPart → Nat
  | root => 0
  | here => 1
  | up => 2
  | name _ => 3

/-- Parts are ordered by their kind, and names by their characters. -/
instance : LT PathPart := ⟨fun a b => a.rank < b.rank ∨ a.rank = b.rank ∧ a.text < b.text⟩

instance (a b : PathPart) : Decidable (a < b) :=
  inferInstanceAs (Decidable (a.rank < b.rank ∨ a.rank = b.rank ∧ a.text < b.text))

/-- The part that a stretch between slashes stands for, if any, unless it is the
    first of its path. -/
def ofSegment (segment : List Char) : Option PathPart :=
  if segment = [] ∨ segment = ['.'] then none
  else if segment = ['.', '.'] then some up
  else some (name (String.ofList segment))

/-! ### The order is a total one -/

theorem lt_iff {a b : PathPart} :
    a < b ↔ a.rank < b.rank ∨ a.rank = b.rank ∧ a.text < b.text := Iff.rfl

theorem lt_trans {a b c : PathPart} (h₁ : a < b) (h₂ : b < c) : a < c := by
  rw [lt_iff] at *
  rcases h₁ with h₁ | ⟨e₁, h₁⟩ <;> rcases h₂ with h₂ | ⟨e₂, h₂⟩
  · exact .inl (Nat.lt_trans h₁ h₂)
  · exact .inl (e₂ ▸ h₁)
  · exact .inl (e₁ ▸ h₂)
  · exact .inr ⟨e₁.trans e₂, String.lt_trans h₁ h₂⟩

theorem lt_irrefl (a : PathPart) : ¬ a < a := by
  rw [lt_iff]
  rintro (h | ⟨_, h⟩)
  · exact Nat.lt_irrefl _ h
  · exact String.lt_irrefl _ h

theorem eq_of_rank_of_text {a b : PathPart} (hr : a.rank = b.rank) (ht : a.text = b.text) :
    a = b := by
  cases a <;> cases b <;> simp_all [rank, text]

theorem eq_of_not_lt {a b : PathPart} (h₁ : ¬ a < b) (h₂ : ¬ b < a) : a = b := by
  simp only [lt_iff, not_or, not_and] at h₁ h₂
  have hr : a.rank = b.rank := by omega
  exact eq_of_rank_of_text hr
    (String.le_antisymm (String.not_lt.1 (h₂.2 hr.symm)) (String.not_lt.1 (h₁.2 hr)))

instance : Trans (fun a b : PathPart => a < b) (fun a b => a < b) (fun a b => a < b) :=
  ⟨lt_trans⟩

instance : Std.Irrefl (fun a b : PathPart => a < b) := ⟨lt_irrefl⟩

instance : Std.Asymm (fun a b : PathPart => a < b) :=
  ⟨fun a _ h₁ h₂ => lt_irrefl a (lt_trans h₁ h₂)⟩

instance : Std.Trichotomous (fun a b : PathPart => a < b) := ⟨fun _ _ => eq_of_not_lt⟩

end PathPart

/-! ## Paths -/

/-- A path, as it was given. -/
structure Path where
  text : String
  deriving Repr, DecidableEq, Inhabited

namespace Path

instance : ToString Path := ⟨Path.text⟩

/-- The stretches of a text between its slashes, of which there is always
    one. -/
def segments : List Char → List (List Char)
  | [] => [[]]
  | c :: cs =>
    if c = '/' then [] :: segments cs
    else
      match segments cs with
      | [] => [[c]]
      | s :: ss => (c :: s) :: ss

/-- The parts of a path. -/
def parts (p : Path) : List PathPart :=
  match segments p.text.toList with
  | [] :: ss@(_ :: _) => .root :: ss.filterMap PathPart.ofSegment
  | ['.'] :: ss => .here :: ss.filterMap PathPart.ofSegment
  | ss => ss.filterMap PathPart.ofSegment

/-- Do two paths have the same parts? -/
def same (p q : Path) : Bool := p.parts == q.parts

/-- Paths are ordered part by part. -/
instance : LT Path := ⟨fun p q => p.parts < q.parts⟩

instance (p q : Path) : Decidable (p < q) := inferInstanceAs (Decidable (p.parts < q.parts))

/-- Does the path start with a slash? -/
def isAbsolute (p : Path) : Bool := p.text.toList.head? == some '/'

/-- The path `q` seen from `p`: an absolute one is itself. -/
def join (p q : Path) : Path :=
  if q.isAbsolute then q
  else if p.text = "" then q
  else if p.text.toList.getLast? = some '/' then ⟨p.text ++ q.text⟩
  else ⟨p.text ++ "/" ++ q.text⟩

/-- The path of the given name below `p`. -/
def child (p : Path) (name : String) : Path := p.join ⟨name⟩

/-- The plainest path with the given parts, of which only the first may be the
    root. -/
def ofParts : List PathPart → Path
  | .root :: parts => ⟨"/" ++ "/".intercalate (parts.map PathPart.text)⟩
  | parts => ⟨"/".intercalate (parts.map PathPart.text)⟩

/-- The path with the same parts, without a dot at the beginning. -/
def normalize (p : Path) : Path := ofParts (p.parts.filter (· != .here))

/-- Are the parts of `base` the first parts of `p`? -/
def startsWith (p base : Path) : Bool := base.parts.isPrefixOf p.parts

/-- Are the parts of `tail` the last parts of `p`? -/
def endsWith (p tail : Path) : Bool := tail.parts.isSuffixOf p.parts

/-- What is left of `p` below `base`. -/
def below? (p base : Path) : Option Path :=
  if p.startsWith base then some (ofParts (p.parts.drop base.parts.length)) else none

/-! ## The last part -/

/-- Do the stretch and the slash before it add nothing to a path? -/
def isBlankSegment (segment : List Char) : Bool := segment == [] || segment == ['.']

/-- The stretches without the last ones that add nothing. -/
def trimSegments (segments : List (List Char)) : List (List Char) :=
  (segments.reverse.dropWhile isBlankSegment).reverse

/-- The path made of the beginning of a path and the stretches after it. -/
def ofSegments (start : List Char) (segments : List (List Char)) : Path :=
  ⟨String.ofList (start ++ List.intercalate ['/'] segments)⟩

/-- The directory that the path lies in: the path without its last part, and
    without slashes and dots that would be left at its end. The root directory
    and the empty path lie in none. -/
def parent (p : Path) : Option Path :=
  match segments p.text.toList with
  | [] :: ss@(_ :: _) =>
    match trimSegments ss with
    | [] => none
    | ss => some (ofSegments ['/'] (trimSegments ss.dropLast))
  | ['.'] :: ss =>
    match trimSegments ss with
    | [] => some ⟨""⟩
    | ss => some (ofSegments [] (['.'] :: trimSegments ss.dropLast))
  | ss =>
    match trimSegments ss with
    | [] => none
    | ss => some (ofSegments [] (trimSegments ss.dropLast))

/-- The last part, if it is a name. -/
def fileName (p : Path) : Option String :=
  match p.parts.getLast? with
  | some (.name s) => some s
  | _ => none

/-- What follows the last dot of the file's name. A dot at the beginning of the
    name does not count. -/
def extension (p : Path) : Option String :=
  match p.fileName with
  | none => none
  | some s =>
    let reversed := s.toList.reverse
    match reversed.dropWhile (· != '.') with
    | [] | [_] => none
    | _ => some (String.ofList (reversed.takeWhile (· != '.')).reverse)

/-- The names among the parts. -/
def names (p : Path) : List String :=
  p.parts.filterMap fun
    | .name s => some s
    | _ => none

/-- The path seen from the directory `cwd`, without dots. -/
def absolute (p cwd : Path) : Path := (cwd.join p).normalize

/-! ## Small laws -/

theorem segments_ne_nil (cs : List Char) : segments cs ≠ [] := by
  cases cs with
  | nil => simp [segments]
  | cons c cs =>
    simp only [segments]
    split
    · simp
    · split <;> simp

theorem same_iff {p q : Path} : p.same q = true ↔ p.parts = q.parts := by
  simp [same]

theorem lt_trans {p q r : Path} (h₁ : p < q) (h₂ : q < r) : p < r := List.lt_trans h₁ h₂

theorem lt_irrefl (p : Path) : ¬ p < p := List.lt_irrefl p.parts

theorem lt_of_not_same {p q : Path} (h : ¬ p.same q = true) (hlt : ¬ p < q) : q < p := by
  rcases Decidable.em (q < p) with h' | h'
  · exact h'
  · exact absurd (same_iff.2 (List.le_antisymm (List.not_lt.1 h') (List.not_lt.1 hlt))) h

theorem startsWith_iff {p base : Path} :
    p.startsWith base = true ↔ base.parts <+: p.parts := by
  simp [startsWith]

end Path

/-! ## Names -/

/-- Are two texts the same but for the case of ASCII letters? -/
def sameLetters (s t : String) : Bool := s.toList.map Char.toLower == t.toList.map Char.toLower

end ElmIntake
