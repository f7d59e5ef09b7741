import ElmIntake.Proofs.Checked.Scanner
import ElmIntake.Proofs.Checked.Walker
import ElmIntake.Syntax.Outcome

/-! # Modules by index

    A **splitter** goes through all tokens of a source by index and takes away one
    item after the other, as a range of them. Each item is then read by a walker.

    Here no report ends a run: reports are collected on the way. So a run has a
    value, or it ends in a fault. -/

namespace ElmIntake

open Machine (check loop)

/-- What a run comes to where its report is a value, too. -/
def Checked.outcome {ε α : Type} : Checked ε α → Checked Empty (Except ε α)
  | .ok a => .ok (.ok a)
  | .error (.report e) => .ok (.error e)
  | .error (.fault f) => .error (.fault f)

/-- A checked step among the tokens of a source. -/
abbrev Split (α : Type) := Machine Walker Empty α

namespace Splitter

open Walker (onTokens left)

/-! ## Taking items -/

/-- The kind of the token ahead, unless it is the end of the source. -/
def currentKind? : Split (Option TokenKind) := do
  let w ← get
  return (w.tokens[w.index]?.map (·.kind)).filter (· != .eof)

/-- Goes past the token at the index, unless the item ends before it. -/
def endRound (tokens : List Token) (_ : Unit) : Machine Nat Empty (Round Unit Unit) := do
  let index ← get
  match tokens[index]? with
  | none => return .done ()
  | some t =>
    if t.kind = .eof ∨ t.inFirstColumn then return .done ()
    else
      set (← check (Checked.word (index + 1)))
      return .again ()

/-- Takes the token ahead and those that follow it up to the next item. -/
def nextItem : Split (List Token) := do
  let w ← get
  let second ← check (Checked.word (w.index + 1))
  let (_, stop) ← check ((loop (w.tokens.length - ·) (endRound w.tokens) ()).run second)
  let stop := min stop w.tokens.length
  set { w with index := stop }
  check (Checked.slice w.tokens w.index stop)

/-! ## The beginning of a source -/

/-- Takes away the first item if it starts outside the first column. -/
def skipMisplaced : Split (List SyntaxError) := do
  let w ← get
  match w.tokens[w.index]? with
  | none => return []
  | some t =>
    if t.kind ≠ .eof ∧ t.inFirstColumn = false then
      let _ ← nextItem
      return [⟨.notInFirstColumn, t.span⟩]
    else return []

/-- Is a header ahead? -/
def startsWithHeader : Split Bool := do
  match ← currentKind? with
  | some (.keyword .moduleWord) => return true
  | some (.keyword .effectWord) => return true
  | some (.keyword .portWord) =>
    let w ← get
    let second ← check (Checked.word (w.index + 1))
    return w.tokens[second]?.map (·.kind) == some (.keyword .moduleWord)
  | _ => return false

/-- Takes away the header, if one is ahead. -/
def takeHeader : Split (ModuleHeader × List SyntaxError) := do
  if ← startsWithHeader then
    let item ← nextItem
    match ← check (Checked.outcome (onTokens Walker.header item)) with
    | .ok h => return (h, [])
    | .error e => return (.implicit, [e])
  else return (.implicit, [])

/-- The documentation comment that some tokens are. -/
def readDoc : List Token → Except SyntaxError (Option (Located String))
  | [⟨.doc text, span⟩] => .ok (some ⟨text, span⟩)
  | _ :: t :: _ => .error ⟨.documentedOnSameLine, t.span⟩
  | _ => .ok none

/-- Takes away the documentation of the module, if it is ahead. -/
def takeDoc : Split (Option (Located String) × List SyntaxError) := do
  match ← currentKind? with
  | some (.doc _) =>
    let item ← nextItem
    match readDoc item with
    | .ok doc => return (doc, [])
    | .error e => return (none, [e])
  | _ => return (none, [])

/-! ## One item after the other -/

/-- Reads a documentation comment. -/
def addDoc (d : Draft) (item : List Token) : Draft :=
  match readDoc item with
  | .ok doc => { d with pendingDoc := doc }
  | .error e => { d with pendingDoc := none }.report e

/-- Reads an import. -/
def addImport (d : Draft) (first : Token) (item : List Token) : Checked Empty Draft := do
  if d.pastImports then return d.report ⟨.importAfterDeclaration, first.span⟩
  else
    match ← Checked.outcome (onTokens Walker.import_ item) with
    | .ok i => return { d with imports := d.imports.push i, pendingDoc := none }
    | .error e => return { d with pendingDoc := none }.report e

/-- Reads a signature. -/
def addSignature (d : Draft) (item : List Token) : Checked Empty Draft := do
  match ← Checked.outcome (onTokens Walker.signature item) with
  | .ok s => return { d with pastImports := true, pendingSignature := some s }
  | .error e => return { d with pastImports := true }.report e

/-- Reads a declaration. -/
def addDeclaration (kind : ModuleKind) (d : Draft) (item : List Token) :
    Checked Empty Draft := do
  let settled := { d with pastImports := true, pendingDoc := none, pendingSignature := none }
  let walk := Walker.declaration kind d.pendingDoc d.pendingSignature
  match ← Checked.outcome (onTokens walk item) with
  | .ok declaration => return { settled with declarations := d.declarations.push declaration }
  | .error e => return settled.report e

/-- Reads an item that starts with the token `first`. -/
def add (kind : ModuleKind) (d : Draft) (first : Token) (item : List Token) :
    Checked Empty Draft :=
  let d := d.settleSignature first.kind
  match first.kind, item[1]?.map Token.kind with
  | .doc _, _ => .ok (addDoc d item)
  | .keyword .importWord, _ => addImport d first item
  | .keyword .moduleWord, _ => .ok (d.report ⟨.secondHeader, first.span⟩)
  | .keyword .effectWord, _ => .ok (d.report ⟨.secondHeader, first.span⟩)
  | .keyword .portWord, some (.keyword .moduleWord) =>
    .ok (d.report ⟨.secondHeader, first.span⟩)
  | .lowerName _, some .colon => addSignature d item
  | _, _ => addDeclaration kind d item

/-- Takes and reads one more item, if there is one. -/
def itemRound (kind : ModuleKind) (d : Draft) : Split (Round Draft Draft) := do
  match ← currentKind? with
  | none => return .done d
  | some _ =>
    match ← nextItem with
    | [] => return .again d
    | first :: rest => return .again (← check (add kind d first (first :: rest)))

/-! ## Whole sources -/

/-- Reads everything up to the end of the source. -/
def readAll : Split (ModuleHeader × Option (Located String) × Draft) := do
  let misplaced ← skipMisplaced
  let (header, inHeader) ← takeHeader
  let (documentation, inDoc) ← takeDoc
  let draft ← loop left (itemRound header.kind) (.start (misplaced ++ inHeader ++ inDoc))
  return (header, documentation, draft.finish)

/-- The module that the tokens make up, or all that is wrong with them. -/
def ofTokens (tokens : List Token) : Checked Empty (Except (List SyntaxError) Module) := do
  let (header, documentation, draft) ← readAll.run' ⟨tokens, 0⟩
  if draft.errors.isEmpty then
    return .ok ⟨header, documentation, draft.imports.toList, draft.declarations.toList,
      (firstSpan tokens).combine (lastSpan tokens)⟩
  else return .error draft.errors.toList

/-- The module that a source holds, or every diagnostic about it. -/
def ofSource (source : String) : Checked Empty (Except (List Diagnostic) Module) := do
  match ← Checked.outcome (Scanner.tokenize.run' (.start source.toList)) with
  | .error e => return .error [e.diagnostic]
  | .ok tokens => return (← ofTokens tokens).mapError (·.map SyntaxError.diagnostic)

end Splitter

end ElmIntake
