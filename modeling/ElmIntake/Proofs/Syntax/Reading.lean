import ElmIntake.Syntax.Grammar

/-! # What readers of items give

    A reader is judged by what it gives when it succeeds. Declarations begin in
    one of four ways, and keep the documentation and the signature that they are
    given. -/

namespace ElmIntake

namespace Reader

/-! ## Results of readers -/

/-- Does every result of the reader have a property? -/
def Ensures {α : Type} (reader : Reader α) (P : α → Prop) : Prop :=
  ∀ c a c', reader c = .ok (a, c') → P a

namespace Ensures

variable {α β : Type} {P : α → Prop} {Q : β → Prop}

theorem pure {a : α} (h : P a) : Ensures (Pure.pure a) P := by
  intro c b c' hb
  cases hb
  exact h

theorem failAt (cause : SyntaxCause) (span : Span) : Ensures (Reader.failAt cause span) P := by
  intro c b c' hb
  cases hb

theorem bind_of {reader : Reader α} {next : α → Reader β} (hreader : Ensures reader P)
    (h : ∀ a, P a → Ensures (next a) Q) : Ensures (reader >>= next) Q := by
  intro c b c' hb
  change (reader c >>= fun x => next x.1 x.2) = _ at hb
  cases hfirst : reader c with
  | error e =>
    rw [hfirst] at hb
    cases hb
  | ok x =>
    rw [hfirst] at hb
    exact h x.1 (hreader _ _ _ hfirst) x.2 b c' hb

/-- What the last step ensures is ensured. -/
theorem bind {reader : Reader α} {next : α → Reader β} (h : ∀ a, Ensures (next a) Q) :
    Ensures (reader >>= next) Q :=
  bind_of (fun _ _ _ _ => trivial) fun a _ => h a

theorem onTokens {reader : Reader α} {tokens : List Token} {a : α} (h : Ensures reader P)
    (ha : reader.onTokens tokens = .ok a) : P a := by
  change (Prod.fst <$> reader (.start tokens)) = _ at ha
  cases hreader : reader (.start tokens) with
  | error e =>
    rw [hreader] at ha
    cases ha
  | ok x =>
    rw [hreader] at ha
    cases ha
    exact h _ _ _ hreader

end Ensures

end Reader

/-! ## Headers -/

/-- The word `port` alone is no header. -/
theorem Reader.header_port_alone {t : Token} {m : ModuleHeader}
    (ht : t.kind = .keyword .portWord) : header.onTokens [t] ≠ .ok m := by
  obtain ⟨kind, span⟩ := t
  cases ht
  nofun

/-! ## Declarations -/

/-- Has the declaration taken what stands before it? Ports and fixities take
    nothing. -/
def Declaration.Takes (doc : Option (Located String)) (signature : Option Signature) :
    Declaration → Prop
  | value d => d.documentation = doc ∧ d.signature = signature
  | synonym d => d.documentation = doc
  | type d => d.documentation = doc
  | port _ => True
  | operator _ => True

namespace Reader

variable {kind : ModuleKind} {doc : Option (Located String)} {sig : Option Signature}

theorem valueDeclaration_ensures :
    (valueDeclaration doc sig).Ensures fun d => d.documentation = doc ∧ d.signature = sig :=
  .bind fun _ => .bind fun _ => .bind fun _ => .bind fun _ => .bind fun _ => .pure ⟨rfl, rfl⟩

theorem aliasDeclaration_ensures :
    (aliasDeclaration doc).Ensures fun d => d.documentation = doc :=
  .bind fun _ => .bind fun _ => .bind fun _ => .bind fun _ => .bind fun _ => .bind fun _ =>
    .bind fun _ => .bind fun _ => .pure rfl

theorem typeDeclaration_ensures :
    (typeDeclaration doc).Ensures fun d => d.documentation = doc :=
  .bind fun _ => .bind fun _ => .bind fun _ => .bind fun _ => .bind fun _ => .bind fun _ =>
    .bind fun _ => .bind fun _ => .bind fun _ => .pure rfl

/-- A declaration takes what it is given. -/
theorem declaration_ensures : (declaration kind doc sig).Ensures (·.Takes doc sig) := by
  unfold declaration
  refine .bind fun c => ?_
  split
  · exact .failAt _ _
  · split
    · refine .bind fun second => ?_
      split
      · exact .bind_of aliasDeclaration_ensures fun _ h => .pure h
      · exact .bind_of typeDeclaration_ensures fun _ h => .pure h
    · split
      · exact .bind fun _ => .pure trivial
      · exact .failAt _ _
    · exact .bind fun _ => .pure trivial
    · exact .bind_of valueDeclaration_ensures fun _ h => .pure h
    · exact .failAt _ _
    · exact .failAt _ _

/-- Declarations begin with one of three words or with a name. -/
theorem first_of_declaration {t : Token} {rest : List Token} {d : Declaration}
    (h : (declaration kind doc sig).onTokens (t :: rest) = .ok d) :
    t.kind = .keyword .typeWord ∨ t.kind = .keyword .portWord ∨ t.kind = .keyword .infixWord ∨
      ∃ name, t.kind = .lowerName name := by
  obtain ⟨first, span⟩ := t
  cases first with
  | keyword word =>
    cases word with
    | typeWord => exact .inl rfl
    | portWord => exact .inr (.inl rfl)
    | infixWord => exact .inr (.inr (.inl rfl))
    | _ => cases h
  | lowerName name => exact .inr (.inr (.inr ⟨name, rfl⟩))
  | opening bracket => cases bracket <;> cases h
  | _ => cases h

end Reader

end ElmIntake
