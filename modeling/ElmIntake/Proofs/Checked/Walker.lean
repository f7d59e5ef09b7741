import ElmIntake.Proofs.Checked.Groups
import ElmIntake.Syntax.Grammar

/-! # Reading an item by index

    A **walker** goes through the tokens of an item by index, where a reader of
    the grammar has the tokens ahead in its hands. Its steps are checked, and its
    repeated readings are loops, in which each round must take a token.

    What is checked without any step, such as the balance of brackets or the
    words of a body, is the grammar's own. -/

namespace ElmIntake

open Machine (check loop)

/-- The tokens of an item and how many of them have been read. -/
structure Walker where
  tokens : List Token
  index : Nat
  deriving Repr, DecidableEq

/-- A checked reader of tokens. -/
abbrev Walk (α : Type) := Machine Walker SyntaxError α

namespace Walker

/-- The number of tokens still to be read. -/
def left (w : Walker) : Nat := w.tokens.length - w.index

open Reader (isDotted)

/-! ## Looking -/

/-- The token ahead. -/
def current? : Walk (Option Token) := do
  let w ← get
  return w.tokens[w.index]?

/-- The kind of the `k`-th token ahead. -/
def peek? (k : Nat) : Walk (Option TokenKind) := do
  let w ← get
  let i ← check (Checked.word (w.index + k))
  return (w.tokens[i]?).map (·.kind)

/-- The place of the token read last; before the first one, of the last token. -/
def behind : Walk Span := do
  let w ← get
  let before ←
    if 0 < w.index then
      let i ← check (Checked.minus w.index 1)
      pure w.tokens[i]?
    else pure none
  return ((before <|> w.tokens.getLast?).map (·.span)).getD .dummy

/-- The place of the token ahead, or of the one read last. -/
def here : Walk Span := do
  match ← current? with
  | some t => return t.span
  | none => behind

/-- The span from `first` up to the token read last. -/
def since (first : Span) : Walk Span := do return first.combine (← behind)

/-! ## Failing -/

/-- Reports with the blame on `span`. -/
def failAt {α : Type} (cause : SyntaxCause) (span : Span) : Walk α :=
  throw (.report ⟨cause, span⟩)

/-- Reports where the walker stands. -/
def fail {α : Type} (cause : SyntaxCause) : Walk α := do failAt cause (← here)

/-- Reports where the walker stands, for want of `what`. -/
def missing {α : Type} (what : Expected) : Walk α := fail (.expected what)

/-! ## Moving on -/

/-- Reads the token ahead, if there is one. -/
def advance : Walk (Option Token) := do
  let w ← get
  match w.tokens[w.index]? with
  | none => return none
  | some t =>
    let index ← check (Checked.word (w.index + 1))
    set { w with index }
    return some t

/-- Reads the token ahead, which is there if the item is well formed. -/
def next (what : Expected) : Walk Token := do
  let span ← here
  match ← advance with
  | some t => return t
  | none => failAt (.expected what) span

/-- Reads the token ahead if it is of the kind `kind`, and says whether it was. -/
def accept (kind : TokenKind) : Walk Bool := do
  if (← peek? 0) = some kind then
    let _ ← advance
    return true
  else return false

/-- Reads a token of the kind `kind`. -/
def expect (kind : TokenKind) (what : Expected) : Walk Span := do
  if (← peek? 0) = some kind then
    match ← advance with
    | some t => return t.span
    | none => missing what
  else missing what

/-- Reads a keyword. -/
def expectKeyword (word : Keyword) (what : Expected) : Walk Unit := do
  if ← accept (.keyword word) then return () else missing what

/-- Reads all tokens that are left. -/
def remaining : Walk (List Token) := do
  let w ← get
  let rest ← check (Checked.sliceFrom w.tokens (min w.index w.tokens.length))
  set { w with index := w.tokens.length }
  return rest

/-- Checks that an item ends where it is complete. -/
def expectEnd (item : Complete) : Walk Unit := do
  match ← current? with
  | none => return ()
  | some t => failAt (.trailing t.text item) t.span

/-- An outcome of the grammar as a step that takes nothing. -/
def answer {α : Type} (outcome : Except SyntaxError α) : Walk α :=
  check (outcome.mapError .report)

/-- Walks through the tokens of an item. -/
def onTokens {α : Type} (walk : Walk α) (tokens : List Token) : Checked SyntaxError α :=
  walk.run' ⟨tokens, 0⟩

/-! ## Names -/

/-- Reads a capitalised name, dotted or not. -/
def upperName (what : Expected) : Walk Name := do
  match ← current? with
  | some ⟨.upperName name, span⟩ =>
    let _ ← advance
    return ⟨name, span⟩
  | _ => missing what

/-- Reads the name of a module. -/
def moduleName (what : Expected) : Walk (Located ModuleName) := do
  let name ← upperName what
  return ⟨.ofDotted name.node, name.span⟩

/-- Reads the name of the type that is being declared. -/
def typeName : Walk Name := do
  let name ← upperName .typeName
  if isDotted name.node then failAt (.dottedType name.node) name.span else return name

/-- Reads the name of the value that is being declared. -/
def declarationName : Walk Name := do
  match ← current? with
  | some ⟨.lowerName name, span⟩ =>
    if isDotted name then failAt (.dottedDeclaration name) span
    else
      let _ ← advance
      return ⟨name, span⟩
  | _ => missing .name

/-- Reads one more parameter of a type, if there is one. -/
def parameterRound (names : List Name) : Walk (Round (List Name) (List Name)) := do
  match ← current? with
  | some ⟨.lowerName name, span⟩ =>
    if isDotted name then failAt (.dottedVariable name) span
    else
      let _ ← advance
      return .again (names ++ [⟨name, span⟩])
  | _ => return .done names

/-- Reads the parameters of a type. -/
def typeParameters : Walk (List Name) := loop left parameterRound []

/-! ## Exposing lists -/

/-- Is the token ahead the operator `..`? -/
def atDots : Walk Bool := do return (← peek? 0) == some (.operator "..")

/-- Reads `..`, which is ahead, and the parenthesis after it. -/
def dotsAndClose : Walk Span := do
  let _ ← advance
  expect (.closing .paren) .closeAfterDots

/-- Reads one item of an exposing list. -/
def exposedItem : Walk (Located ExposedItem) := do
  let t ← next .exposedName
  match t.kind with
  | .lowerName name =>
    if isDotted name then failAt (.unexpectedExposed name) t.span
    else return ⟨.value name, t.span⟩
  | .upperName name =>
    if isDotted name then failAt (.unexpectedExposed name) t.span
    else if ← accept (.opening .paren) then
      if !(← atDots) then missing (.dotsAfter name)
      else
        let _ ← dotsAndClose
        return ⟨.type name true, ← since t.span⟩
    else return ⟨.type name false, ← since t.span⟩
  | .opening .paren =>
    let symbol ← next .operator
    match symbol.kind with
    | .operator symbols =>
      let _ ← expect (.closing .paren) .closeAfterOperator
      return ⟨.operator symbols, ← since t.span⟩
    | _ => failAt (.expected .operator) symbol.span
  | .closing .paren => failAt .emptyExposing t.span
  | _ => failAt (.unexpectedExposed t.text) t.span

/-- Reads one more item of an exposing list, with the comma or parenthesis after it. -/
def exposedRound (items : List (Located ExposedItem)) :
    Walk (Round (List (Located ExposedItem)) (List (Located ExposedItem))) := do
  let item ← exposedItem
  if ← accept .comma then return .again (items ++ [item])
  else
    let _ ← expect (.closing .paren) .commaOrClose
    return .done (items ++ [item])

/-- Reads an exposing list, with its parentheses. -/
def exposing : Walk Exposing := do
  let first ← expect (.opening .paren) .exposingParen
  if ← atDots then
    return .all (first.combine (← dotsAndClose))
  else return .listed (← loop left exposedRound [])

/-! ## Headers and imports -/

/-- Reads one more token of the settings, in which `depth` braces are open; the first
    of them is at `opener`. -/
def settingRound (opener : Span) (depth : Nat) : Walk (Round Nat Unit) := do
  if 0 < depth then
    match ← advance with
    | none => failAt (.unclosed Bracket.brace.openText) opener
    | some t =>
      match t.kind with
      | .opening .brace => return .again (← check (Checked.word (depth + 1)))
      | .closing .brace => return .again (← check (Checked.minus depth 1))
      | _ => return .again depth
  else return .done ()

/-- Reads up to the brace that closes the one at `opener`. -/
def settings (opener : Span) : Walk Unit := loop left (settingRound opener) 1

/-- Reads the word before `module`, if there is one. -/
def moduleKind : Walk ModuleKind := do
  if ← accept (.keyword .portWord) then return .port
  else if ← accept (.keyword .effectWord) then return .effect
  else return .normal

/-- Reads a header. -/
def header : Walk ModuleHeader := do
  let first ← here
  let kind ← moduleKind
  expectKeyword .moduleWord (.keyword .moduleWord)
  let name ← moduleName (.nameAfter .moduleWord)
  if kind = .effect then
    expectKeyword .whereWord .whereClause
    settings (← expect (.opening .brace) .settingsBrace)
  expectKeyword .exposingWord (.exposingAfter name.node.dotted)
  let exposed ← exposing
  expectEnd .header
  return ⟨kind, name, exposed, false, ← since first⟩

/-- Reads the alias of an import, if there is one. -/
def importAlias : Walk (Option Name) := do
  if ← accept (.keyword .asWord) then
    let name ← upperName .aliasName
    if isDotted name.node then failAt (.dottedAlias name.node) name.span
    else return some name
  else return none

/-- Reads the exposing list of an import, if there is one. -/
def importExposing : Walk (Option Exposing) := do
  if ← accept (.keyword .exposingWord) then return some (← exposing) else return none

/-- Reads an import. -/
def import_ : Walk Import := do
  let first ← here
  expectKeyword .importWord (.keyword .importWord)
  let name ← moduleName (.nameAfter .importWord)
  let asName ← importAlias
  let exposed ← importExposing
  expectEnd .importItem
  return ⟨name, asName, exposed, ← since first⟩

/-! ## Types -/

/-- Reads the rest of the item as the type of `owner`. -/
def typeAnnotation (owner : String) : Walk String := do
  let before ← behind
  let tokens ← remaining
  answer (Reader.checkType owner before tokens)
  return render tokens

/-- Reads a signature. -/
def signature : Walk Signature := do
  let first ← here
  let name ← declarationName
  let _ ← expect .colon .colon
  let annotation ← typeAnnotation name.node
  return ⟨name, annotation, ← since first⟩

/-- Reads a type alias. -/
def aliasDeclaration (doc : Option (Located String)) : Walk AliasDeclaration := do
  let first ← here
  expectKeyword .typeWord (.keyword .typeWord)
  expectKeyword .aliasWord (.keyword .aliasWord)
  let name ← typeName
  let parameters ← typeParameters
  let _ ← expect .equals (.equalsAfterAlias name.node)
  let annotation ← typeAnnotation name.node
  return ⟨doc, name, parameters, annotation, ← since first⟩

/-- A constructor made of the tokens of one variant; `before` is blamed if there
    are none. -/
def constructor (before : Span) : List Token → Checked SyntaxError Constructor
  | [] => .error (.report ⟨.expected .constructorName, before⟩)
  | t :: tokens =>
    match t.kind with
    | .upperName name =>
      if isDotted name then .error (.report ⟨.expected (.constructorNameNot t.text), t.span⟩)
      else do
        let arguments ← Checked.atomsOf tokens
        let last := (t :: tokens).getLast (List.cons_ne_nil _ _)
        return ⟨⟨name, t.span⟩, arguments.map render, t.span.combine last.span⟩
    | _ => .error (.report ⟨.expected (.constructorNameNot t.text), t.span⟩)

/-- Reads a custom type. -/
def typeDeclaration (doc : Option (Located String)) : Walk TypeDeclaration := do
  let first ← here
  expectKeyword .typeWord (.keyword .typeWord)
  let name ← typeName
  let parameters ← typeParameters
  let equals ← expect .equals (.equalsAfterType name.node)
  let tokens ← remaining
  answer (balanced tokens)
  let variants ← check (Checked.partsOf .pipe tokens)
  let constructors ← variants.mapM fun tokens => check (constructor equals tokens)
  return ⟨doc, name, parameters, constructors, ← since first⟩

/-! ## Ports and operators -/

/-- Reads a port. -/
def portDeclaration : Walk PortDeclaration := do
  let first ← here
  expectKeyword .portWord (.keyword .portWord)
  let name ← declarationName
  let _ ← expect .colon (.colonAfterPort name.node)
  let annotation ← typeAnnotation name.node
  return ⟨name, annotation, ← since first⟩

/-- Reads a token that stands for something, or blames it. -/
def reading {α : Type} (what : Expected) (meaning : TokenKind → Option α)
    (blame : Expected) : Walk (Located α) := do
  let t ← next what
  match meaning t.kind with
  | some value => return ⟨value, t.span⟩
  | none => failAt (.expected blame) t.span

/-- Reads the fixity of an operator. -/
def operatorDeclaration : Walk OperatorDeclaration := do
  let first ← here
  expectKeyword .infixWord (.keyword .infixWord)
  let associativity ← reading .associativity Reader.associativity? .associativity
  let precedence ← reading .precedence Reader.precedence? .precedenceInRange
  let _ ← expect (.opening .paren) .openBeforeOperator
  let operator ← reading .operator Reader.operatorText? .operator
  let _ ← expect (.closing .paren) .closeAfterOperator
  let _ ← expect .equals .equalsAfterOperator
  let function ← declarationName
  expectEnd .operator
  return ⟨associativity.node, precedence.node, operator, function, ← since first⟩

/-! ## Definitions -/

/-- The place of some tokens, which are looked up by index. -/
def spanOf (tokens : List Token) : Checked SyntaxError Span := do
  let first ← Checked.fetch tokens 0
  let index ← Checked.minus tokens.length 1
  let last ← Checked.fetch tokens index
  return first.span.combine last.span

/-- An argument made of the tokens of an atom. -/
def argument (tokens : List Token) : Checked SyntaxError (Located String) := do
  let span ← spanOf tokens
  return ⟨render tokens, span⟩

/-- The arguments and the body that the tokens after the name `owner` make up. -/
def argumentsAndBody (owner : Name) (tokens : List Token) :
    Checked SyntaxError (List (Located String) × Span) := do
  (balanced tokens).mapError .report
  match ← Checked.indexAtTop? .equals 0 0 tokens with
  | none => .error (.report ⟨.expected (.equalsInDefinition owner.node), owner.span⟩)
  | some index =>
    let before ← Checked.slice tokens 0 index
    let atoms ← Checked.atomsOf before
    let arguments ← atoms.mapM argument
    let next ← Checked.word (index + 1)
    let body ← Checked.sliceFrom tokens next
    let equals ← Checked.fetch tokens index
    (Reader.checkBody owner.node equals.span body).mapError .report
    let span ← spanOf body
    return (arguments, span)

/-- Reads a definition. -/
def valueDeclaration (doc : Option (Located String)) (signature : Option Signature) :
    Walk ValueDeclaration := do
  let first ← here
  let name ← declarationName
  let tokens ← remaining
  let (arguments, body) ← check (argumentsAndBody name tokens)
  return ⟨doc, signature, name, arguments, body, ← since first⟩

/-- Reads a declaration of a module of the kind `kind`; `doc` and `signature` are
    those that stand before it. -/
def declaration (kind : ModuleKind) (doc : Option (Located String))
    (signature : Option Signature) : Walk Declaration := do
  match ← current? with
  | none => failAt (.expected .declaration) .dummy
  | some t =>
    match t.kind with
    | .keyword .typeWord =>
      if (← peek? 1) = some (.keyword .aliasWord) then
        return .synonym (← aliasDeclaration doc)
      else return .type (← typeDeclaration doc)
    | .keyword .portWord =>
      if kind = .port then return .port (← portDeclaration)
      else failAt .portOutsidePortModule t.span
    | .keyword .infixWord => return .operator (← operatorDeclaration)
    | .lowerName _ => return .value (← valueDeclaration doc signature)
    | .opening .paren => failAt .operatorDefinition t.span
    | _ => failAt (.unexpectedAtTop t.text) t.span

end Walker

end ElmIntake
