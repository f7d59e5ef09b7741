import ElmIntake.Syntax.Group
import ElmIntake.Syntax.Tree
import Mathlib.Data.List.Forall2

/-! # What is left without places

    Trees with all their spans forgotten, and the kinds of tokens. Whatever is
    computed from a list of tokens without its places hangs on the kinds alone:
    how it falls apart into groups and parts, and its text. -/

namespace ElmIntake

/-! ## Trees -/

def Located.unplaced {α : Type} (l : Located α) : Located α := { l with span := .dummy }

@[simp] theorem Located.node_unplaced {α : Type} (l : Located α) : l.unplaced.node = l.node := rfl

theorem Located.unplaced_eq_iff {α : Type} {l l' : Located α} :
    l.unplaced = l'.unplaced ↔ l.node = l'.node := by
  simp [unplaced]

def Exposing.unplaced : Exposing → Exposing
  | all _ => .all .dummy
  | listed items => .listed (items.map Located.unplaced)

def ModuleHeader.unplaced (h : ModuleHeader) : ModuleHeader :=
  { h with name := h.name.unplaced, exposing := h.exposing.unplaced, span := .dummy }

def Import.unplaced (i : Import) : Import where
  moduleName := i.moduleName.unplaced
  asName := i.asName.map Located.unplaced
  exposing := i.exposing.map Exposing.unplaced
  span := .dummy

def Signature.unplaced (s : Signature) : Signature :=
  { s with name := s.name.unplaced, span := .dummy }

def ValueDeclaration.unplaced (d : ValueDeclaration) : ValueDeclaration where
  documentation := d.documentation.map Located.unplaced
  signature := d.signature.map Signature.unplaced
  name := d.name.unplaced
  arguments := d.arguments.map Located.unplaced
  body := .dummy
  span := .dummy

def AliasDeclaration.unplaced (d : AliasDeclaration) : AliasDeclaration where
  documentation := d.documentation.map Located.unplaced
  name := d.name.unplaced
  parameters := d.parameters.map Located.unplaced
  annotation := d.annotation
  span := .dummy

def Constructor.unplaced (c : Constructor) : Constructor :=
  { c with name := c.name.unplaced, span := .dummy }

def TypeDeclaration.unplaced (d : TypeDeclaration) : TypeDeclaration where
  documentation := d.documentation.map Located.unplaced
  name := d.name.unplaced
  parameters := d.parameters.map Located.unplaced
  constructors := d.constructors.map Constructor.unplaced
  span := .dummy

def PortDeclaration.unplaced (d : PortDeclaration) : PortDeclaration :=
  { d with name := d.name.unplaced, span := .dummy }

def OperatorDeclaration.unplaced (d : OperatorDeclaration) : OperatorDeclaration :=
  { d with operator := d.operator.unplaced, function := d.function.unplaced, span := .dummy }

def Declaration.unplaced : Declaration → Declaration
  | value d => .value d.unplaced
  | synonym d => .synonym d.unplaced
  | type d => .type d.unplaced
  | port d => .port d.unplaced
  | operator d => .operator d.unplaced

/-- The module with all its spans forgotten. -/
def Module.unplaced (m : Module) : Module where
  header := m.header.unplaced
  documentation := m.documentation.map Located.unplaced
  imports := m.imports.map Import.unplaced
  declarations := m.declarations.map Declaration.unplaced
  span := .dummy

/-! ## Tokens -/

/-- The kinds of some tokens. -/
def kinds (tokens : List Token) : List TokenKind := tokens.map (·.kind)

@[simp] theorem kinds_cons (t : Token) (tokens : List Token) :
    kinds (t :: tokens) = t.kind :: kinds tokens := rfl

/-- Of two options with the same image both are there or none. -/
theorem cases_of_map_eq {α β : Type} {f : α → β} {x x' : Option α} (h : x.map f = x'.map f) :
    x = none ∧ x' = none ∨ ∃ a a', x = some a ∧ x' = some a' ∧ f a = f a' := by
  cases x with
  | none =>
    cases x' with
    | none => exact .inl ⟨rfl, rfl⟩
    | some a' => cases h
  | some a =>
    cases x' with
    | none => cases h
    | some a' => exact .inr ⟨a, a', rfl, rfl, Option.some.inj h⟩

/-- Tokens of the same kinds as a list with a first one have a first one, too. -/
theorem exists_of_kinds_cons {t : Token} {tokens tokens' : List Token}
    (h : kinds (t :: tokens) = kinds tokens') :
    ∃ t' rest, tokens' = t' :: rest ∧ t.kind = t'.kind ∧ kinds tokens = kinds rest := by
  cases tokens' with
  | nil => cases h
  | cons t' rest =>
    obtain ⟨hkind, hrest⟩ := List.cons.inj h
    exact ⟨t', rest, rfl, hkind, hrest⟩

theorem eq_nil_of_kinds {tokens : List Token} (h : kinds [] = kinds tokens) : tokens = [] := by
  cases tokens with
  | nil => rfl
  | cons t rest => cases h

section

variable {tokens tokens' : List Token}

theorem length_of_kinds (h : kinds tokens = kinds tokens') : tokens.length = tokens'.length := by
  simpa [kinds] using congrArg List.length h

theorem head?_of_kinds (h : kinds tokens = kinds tokens') :
    tokens.head?.map (·.kind) = tokens'.head?.map (·.kind) := by
  simpa [kinds] using congrArg List.head? h

theorem getElem?_of_kinds (h : kinds tokens = kinds tokens') (n : Nat) :
    tokens[n]?.map (·.kind) = tokens'[n]?.map (·.kind) := by
  simpa [kinds] using congrArg (·[n]?) h

theorem getLast?_of_kinds (h : kinds tokens = kinds tokens') :
    tokens.getLast?.map (·.kind) = tokens'.getLast?.map (·.kind) := by
  simpa [kinds] using congrArg List.getLast? h

theorem drop_of_kinds (h : kinds tokens = kinds tokens') (n : Nat) :
    kinds (tokens.drop n) = kinds (tokens'.drop n) := by
  simpa [kinds] using congrArg (List.drop n) h

theorem find?_of_kinds (h : kinds tokens = kinds tokens') (p : TokenKind → Bool) :
    (tokens.find? (p ·.kind)).map (·.kind) = (tokens'.find? (p ·.kind)).map (·.kind) := by
  simpa [kinds, List.find?_map, Function.comp_def] using congrArg (List.find? p) h

theorem countP_of_kinds (h : kinds tokens = kinds tokens') (p : TokenKind → Bool) :
    tokens.countP (p ·.kind) = tokens'.countP (p ·.kind) := by
  simpa [kinds, List.countP_map, Function.comp_def] using congrArg (List.countP p) h

/-! ### Parts and groups -/

/-- The kinds of a split. -/
def splitKinds (split : List Token × Token × List Token) :
    List TokenKind × TokenKind × List TokenKind :=
  (kinds split.1, split.2.1.kind, kinds split.2.2)

theorem splitAtTop?_of_kinds (separator : TokenKind) (depth : Nat)
    (h : kinds tokens = kinds tokens') :
    (splitAtTop? separator depth tokens).map splitKinds =
      (splitAtTop? separator depth tokens').map splitKinds := by
  induction tokens generalizing tokens' depth with
  | nil =>
    obtain rfl := eq_nil_of_kinds h
    rfl
  | cons t tokens ih =>
    obtain ⟨t', rest, rfl, hkind, hrest⟩ := exists_of_kinds_cons h
    unfold splitAtTop?
    rw [hkind]
    -- Both lists begin with the separator, or none does.
    split
    · simp [splitKinds, hkind, hrest]
    · have hsplit := congrArg (Option.map fun s => (t'.kind :: s.1, s.2))
        (ih (depthAfter depth t'.kind) hrest)
      simp only [Option.map_map] at hsplit ⊢
      simpa [Function.comp_def, splitKinds, hkind] using hsplit

theorem partsAtTop_of_kinds (separator : TokenKind) (depth : Nat)
    (h : kinds tokens = kinds tokens') :
    (partsAtTop separator depth tokens).map kinds =
      (partsAtTop separator depth tokens').map kinds := by
  induction tokens generalizing tokens' depth with
  | nil =>
    obtain rfl := eq_nil_of_kinds h
    rfl
  | cons t tokens ih =>
    obtain ⟨t', rest, rfl, hkind, hrest⟩ := exists_of_kinds_cons h
    unfold partsAtTop
    rw [hkind]
    split
    · simp [ih 0 hrest]
    · -- The token joins the first part, in both lists.
      have hparts := ih (depthAfter depth t'.kind) hrest
      cases hfirst : partsAtTop separator (depthAfter depth t'.kind) tokens <;>
        cases hsecond : partsAtTop separator (depthAfter depth t'.kind) rest <;>
        simp_all

theorem atomsFrom_of_kinds (depth : Nat) (h : kinds tokens = kinds tokens') :
    (atomsFrom depth tokens).map (kinds ·.tokens) =
      (atomsFrom depth tokens').map (kinds ·.tokens) := by
  induction tokens generalizing tokens' depth with
  | nil =>
    obtain rfl := eq_nil_of_kinds h
    rfl
  | cons t tokens ih =>
    obtain ⟨t', rest, rfl, hkind, hrest⟩ := exists_of_kinds_cons h
    unfold atomsFrom
    dsimp only
    rw [hkind]
    split
    · rw [List.map_cons, List.map_cons, ih 0 hrest]
      simp [Atom.tokens, hkind]
    · -- The token joins the first atom, in both lists.
      have hatoms := ih (depthAfter depth t'.kind) hrest
      cases hfirst : atomsFrom (depthAfter depth t'.kind) tokens <;>
        cases hsecond : atomsFrom (depthAfter depth t'.kind) rest <;>
        simp_all [Atom.tokens]

/-! ### Texts -/

theorem spacedAfter_of_kinds (previous : TokenKind) (h : kinds tokens = kinds tokens') :
    spacedAfter previous tokens = spacedAfter previous tokens' := by
  induction tokens generalizing tokens' previous with
  | nil =>
    obtain rfl := eq_nil_of_kinds h
    rfl
  | cons t tokens ih =>
    obtain ⟨t', rest, rfl, hkind, hrest⟩ := exists_of_kinds_cons h
    simp only [spacedAfter, Token.text, hkind, ih t'.kind hrest]

theorem render_of_kinds (h : kinds tokens = kinds tokens') : render tokens = render tokens' := by
  cases tokens with
  | nil =>
    obtain rfl := eq_nil_of_kinds h
    rfl
  | cons t tokens =>
    obtain ⟨t', rest, rfl, hkind, hrest⟩ := exists_of_kinds_cons h
    simp only [render, Token.text, hkind, spacedAfter_of_kinds t'.kind hrest]

/-- The texts of the atoms of some tokens hang on the kinds alone. -/
theorem renderAtoms_of_kinds (h : kinds tokens = kinds tokens') :
    (atoms tokens).map (render ·.tokens) = (atoms tokens').map (render ·.tokens) := by
  have hatoms := atomsFrom_of_kinds 0 h
  unfold atoms
  -- The induction is on the atoms, no matter what they were made of.
  generalize atomsFrom 0 tokens = as at hatoms ⊢
  generalize atomsFrom 0 tokens' = as' at hatoms ⊢
  induction as generalizing as' with
  | nil =>
    cases as' with
    | nil => rfl
    | cons a' as' => cases hatoms
  | cons a as ih =>
    cases as' with
    | nil => cases hatoms
    | cons a' as' =>
      obtain ⟨hfirst, hrest⟩ := List.cons.inj hatoms
      rw [List.map_cons, List.map_cons, render_of_kinds hfirst, ih as' hrest]

end

end ElmIntake
