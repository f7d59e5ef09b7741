import ElmIntake.Syntax.Grammar
import ElmIntake.Token.Piece

/-! # From source to module

    A source is read item by item, each one on its own: an item that cannot be
    read is reported and left out, and reading goes on with the next. The
    order of items is fixed: header, imports, declarations; documentation
    comments and signatures wait for the item that they belong to. -/

namespace ElmIntake

/-! ## Drafts -/

/-- A module as far as it has been read. -/
structure Draft where
  imports : Array Import
  declarations : Array Declaration
  /-- Set once a signature or declaration has been met. -/
  pastImports : Bool
  /-- The documentation comment that waits for its declaration. -/
  pendingDoc : Option (Located String)
  /-- The signature that waits for its definition. -/
  pendingSignature : Option Signature
  /-- What has been reported, in order. -/
  errors : Array SyntaxError
  deriving Repr, DecidableEq

namespace Draft

/-- The draft of a module with nothing read, after some reports. -/
def start (errors : List SyntaxError) : Draft := ⟨#[], #[], false, none, none, errors.toArray⟩

/-- Adds a report. -/
def report (d : Draft) (e : SyntaxError) : Draft := { d with errors := d.errors.push e }

/-- Reports a signature that no definition follows. -/
def reportSignature (d : Draft) (s : Signature) : Draft :=
  d.report ⟨.signatureWithoutDefinition s.name.node, s.span⟩

/-- Gives up the pending signature unless the item that follows, which starts
    with a token of the kind `first`, bears its name. -/
def settleSignature (d : Draft) (first : TokenKind) : Draft :=
  match d.pendingSignature with
  | none => d
  | some s =>
    if first = .lowerName s.name.node then d
    else { d with pendingSignature := none }.reportSignature s

end Draft

/-! ## Items -/

/-- The documentation comment that an item is. Nothing may follow it on its
    line. -/
def readDoc (item : Item) : Except SyntaxError (Option (Located String)) :=
  match item.first.kind, item.rest with
  | .doc text, [] => .ok (some ⟨text, item.first.span⟩)
  | _, [] => .ok none
  | _, t :: _ => .error ⟨.documentedOnSameLine, t.span⟩

namespace Draft

/-- Reads a documentation comment, which takes the place of one that waits. -/
def addDoc (d : Draft) (item : Item) : Draft :=
  match readDoc item with
  | .ok doc => { d with pendingDoc := doc }
  | .error e => { d with pendingDoc := none }.report e

/-- Reads an import, which discards a documentation comment that waits. -/
def addImport (d : Draft) (item : Item) : Draft :=
  -- A late import is not even read, and the documentation goes on waiting.
  if d.pastImports then d.report ⟨.importAfterDeclaration, item.first.span⟩
  else
    match Reader.import_.onTokens item.tokens with
    | .ok i => { d with imports := d.imports.push i, pendingDoc := none }
    | .error e => { d with pendingDoc := none }.report e

/-- Reads a signature, which then waits for its definition. -/
def addSignature (d : Draft) (item : Item) : Draft :=
  match Reader.signature.onTokens item.tokens with
  | .ok s => { d with pastImports := true, pendingSignature := some s }
  | .error e => { d with pastImports := true }.report e

/-- Reads a declaration, which takes what waits for it. -/
def addDeclaration (kind : ModuleKind) (d : Draft) (item : Item) : Draft :=
  let settled := { d with pastImports := true, pendingDoc := none, pendingSignature := none }
  match (Reader.declaration kind d.pendingDoc d.pendingSignature).onTokens item.tokens with
  | .ok declaration => { settled with declarations := d.declarations.push declaration }
  | .error e => settled.report e

/-- Reads one item after the header of a module of the kind `kind`. -/
def add (kind : ModuleKind) (d : Draft) (item : Item) : Draft :=
  let d := d.settleSignature item.first.kind
  -- `port` alone declares a port, so here the second token decides.
  match item.first.kind, item.second? with
  | .doc _, _ => d.addDoc item
  | .keyword .importWord, _ => d.addImport item
  | .keyword .moduleWord, _ | .keyword .effectWord, _
  | .keyword .portWord, some (.keyword .moduleWord) =>
    d.report ⟨.secondHeader, item.first.span⟩
  | .lowerName _, some .colon => d.addSignature item
  | _, _ => d.addDeclaration kind item

/-- Gives up the signature that waits at the end of the source. -/
def finish (d : Draft) : Draft :=
  match d.pendingSignature with
  | none => d
  | some s => { d with pendingSignature := none }.reportSignature s

end Draft

/-! ## The beginning of a source -/

/-- Takes away the first item if it starts outside the first column, which is an
    error. -/
def skipMisplaced : List Item → List Item × List SyntaxError
  | [] => ([], [])
  | item :: items =>
    if item.first.inFirstColumn then (item :: items, [])
    else (items, [⟨.notInFirstColumn, item.first.span⟩])

/-- Do the items begin with a header? `port` needs `module` as the next token,
    whichever item that is in. -/
def startsWithHeader (items : List Item) : Bool :=
  match (Item.allTokens items).map Token.kind with
  | .keyword .moduleWord :: _ | .keyword .effectWord :: _
  | .keyword .portWord :: .keyword .moduleWord :: _ => true
  | _ => false

/-- Takes away the header, if the items begin with one. A header that cannot be
    read is reported and counts as the implicit one. -/
def takeHeader (items : List Item) : ModuleHeader × List Item × List SyntaxError :=
  match startsWithHeader items, items with
  | true, item :: items =>
    match Reader.header.onTokens item.tokens with
    | .ok h => (h, items, [])
    | .error e => (.implicit, items, [e])
  | _, _ => (.implicit, items, [])

/-- Takes away the documentation of the module, if the items begin with it. -/
def takeDoc : List Item → Option (Located String) × List Item × List SyntaxError
  | [] => (none, [], [])
  | item :: items =>
    match item.first.kind with
    | .doc _ =>
      match readDoc item with
      | .ok doc => (doc, items, [])
      | .error e => (none, items, [e])
    | _ => (none, item :: items, [])

/-! ## Whole sources -/

/-- The place of the first token; a dummy if there is none. -/
def firstSpan (tokens : List Token) : Span := (tokens.head?.map (·.span)).getD .dummy

/-- The place of the last token before the end of the source, or else of the
    first token. -/
def lastSpan (tokens : List Token) : Span :=
  ((tokens.reverse.find? (·.kind != .eof)).map (·.span)).getD (firstSpan tokens)

/-- The items of some tokens, as far as the end of the source. -/
def itemsOf (tokens : List Token) : List Item := Item.cut (tokens.takeWhile (·.kind != .eof))

namespace Module

/-- The module that the tokens make up, or all that is wrong with them. -/
def ofTokens (tokens : List Token) : Except (List SyntaxError) Module :=
  let (items, misplaced) := skipMisplaced (itemsOf tokens)
  let (header, items, inHeader) := takeHeader items
  let (documentation, items, inDoc) := takeDoc items
  let draft := items.foldl (Draft.add header.kind) (.start (misplaced ++ inHeader ++ inDoc))
  let draft := draft.finish
  if draft.errors.isEmpty then
    .ok ⟨header, documentation, draft.imports.toList, draft.declarations.toList,
      (firstSpan tokens).combine (lastSpan tokens)⟩
  else .error draft.errors.toList

/-- The module that a source holds, or every diagnostic about it. -/
def ofSource (source : String) : Except (List Diagnostic) Module :=
  match Token.ofSource source with
  | .error e => .error [e.diagnostic]
  | .ok tokens => (ofTokens tokens).mapError (·.map SyntaxError.diagnostic)

end Module

/-! ## Outcomes -/

/-- What came of reading a source file. -/
inductive Outcome where
  | parsed (tree : Module)
  | failed (diagnostics : List Diagnostic)
  deriving Repr, DecidableEq

namespace Outcome

/-- The module, if the source was good. -/
def module? : Outcome → Option Module
  | parsed m => some m
  | failed _ => none

/-- What was wrong with the source. -/
def diagnostics : Outcome → List Diagnostic
  | parsed _ => []
  | failed ds => ds

/-- The outcome of reading a source. -/
def ofSource (source : String) : Outcome :=
  match Module.ofSource source with
  | .ok m => parsed m
  | .error ds => failed ds

end Outcome

end ElmIntake
