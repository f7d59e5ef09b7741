import ElmIntake.Token

/-! # Top-level items

    A token in the first column starts a new **item**. Cutting before every
    such token loses and changes nothing: the items, joined together, are the
    tokens. -/

namespace ElmIntake

/-- A token and those that follow it up to the next item. -/
structure Item where
  first : Token
  rest : List Token
  deriving Repr, DecidableEq

namespace Item

/-- All tokens of an item. -/
def tokens (item : Item) : List Token := item.first :: item.rest

/-- The kind of the second token, if there is one. -/
def second? (item : Item) : Option TokenKind := item.rest.head?.map (·.kind)

/-- Cuts tokens into items. Only the first item may start outside the first
    column. -/
def cut : List Token → List Item
  | [] => []
  | t :: tokens =>
    match cut tokens with
    | [] => [⟨t, []⟩]
    | item :: items =>
      if item.first.inFirstColumn then ⟨t, []⟩ :: item :: items
      else ⟨t, item.tokens⟩ :: items

/-- The tokens of some items, in order. -/
def allTokens (items : List Item) : List Token := items.flatMap tokens

/-- Cutting keeps every token and their order. -/
theorem allTokens_cut (tokens : List Token) : allTokens (cut tokens) = tokens := by
  induction tokens with
  | nil => rfl
  | cons t tokens ih =>
    unfold cut
    split
    · next eq =>
      rw [eq] at ih
      simp [allTokens, Item.tokens, ← ih]
    · next item items eq =>
      rw [eq] at ih
      split <;> simp [allTokens, Item.tokens, ← ih]

end Item

end ElmIntake
