import ElmIntake.Syntax.Cursor

/-! # The grammar of items

    One reader for each kind of top-level item. A reader succeeds exactly on
    the items of its kind, and otherwise names the first thing wrong. -/

namespace ElmIntake

namespace Reader

/-! ## Names -/

/-- Does a name consist of several segments? -/
def isDotted (name : String) : Bool := name.toList.contains '.'

/-- Reads a capitalised name, dotted or not. -/
def upperName (what : Expected) : Reader Name := do
  match ← peek? with
  | some (.upperName name) => return ⟨name, (← next what).span⟩
  | _ => missing what

/-- Reads the name of a module. -/
def moduleName (what : Expected) : Reader (Located ModuleName) := do
  let name ← upperName what
  return ⟨.ofDotted name.node, name.span⟩

/-- Reads the name of the type that is being declared. -/
def typeName : Reader Name := do
  let name ← upperName .typeName
  if isDotted name.node then failAt (.dottedType name.node) name.span else return name

/-- Reads the name of the value that is being declared. -/
def declarationName : Reader Name := do
  match ← peek? with
  | some (.lowerName name) =>
    if isDotted name then fail (.dottedDeclaration name)
    else return ⟨name, (← next .name).span⟩
  | _ => missing .name

/-- The lower case names that a list of tokens begins with. -/
def leadingLowerNames : List Token → List Name
  | ⟨.lowerName name, span⟩ :: tokens => ⟨name, span⟩ :: leadingLowerNames tokens
  | _ => []

/-- Reads the parameters of a type: as many lower case names as there are. -/
def typeParameters : Reader (List Name) := do
  let names := leadingLowerNames (← get).ahead
  match names.find? (isDotted ·.node) with
  | some name => failAt (.dottedVariable name.node) name.span
  | none => modifyGet fun c => (names, c.skip names.length)

/-! ## Exposing lists -/

/-- Is the token ahead the operator `..`? -/
def atDots : Reader Bool := do return (← peek?) == some (.operator "..")

/-- Reads `..` and the parenthesis after it. -/
def dotsAndClose : Reader Span := do
  let _ ← next .closeAfterDots
  expect (.closing .paren) .closeAfterDots

/-- Reads one item of an exposing list. -/
def exposedItem : Reader (Located ExposedItem) := do
  let t ← next .exposedName
  match t.kind with
  | .lowerName name =>
    if isDotted name then failAt (.unexpectedExposed name) t.span
    else return ⟨.value name, t.span⟩
  | .upperName name =>
    if isDotted name then failAt (.unexpectedExposed name) t.span
    else if ← accept (.opening .paren) then
      -- Constructors are exposed all together or not at all.
      if !(← atDots) then missing (.dotsAfter name)
      else
        let _ ← dotsAndClose
        return ⟨.type name true, ← since t.span⟩
    else return ⟨.type name false, ← since t.span⟩
  | .opening .paren =>
    let symbol ← next .operator
    match symbol.kind with
    | .operator symbols =>
      let _ ← expect (.closing .paren) .closeAfterOperator
      return ⟨.operator symbols, ← since t.span⟩
    | _ => failAt (.expected .operator) symbol.span
  | .closing .paren => failAt .emptyExposing t.span
  | _ => failAt (.unexpectedExposed t.text) t.span

/-- Reads the items of an exposing list and the parenthesis that ends it. Each
    item takes a token, so `fuel` for as many items as there are tokens ahead is
    enough; without tokens there is no item to read. -/
def exposedItems : (fuel : Nat) → Reader (List (Located ExposedItem))
  | 0 => missing .exposedName
  | fuel + 1 => do
    let item ← exposedItem
    if ← accept .comma then
      return item :: (← exposedItems fuel)
    else
      let _ ← expect (.closing .paren) .commaOrClose
      return [item]

/-- Reads an exposing list, with its parentheses. -/
def exposing : Reader Exposing := do
  let first ← expect (.opening .paren) .exposingParen
  if ← atDots then
    return .all (first.combine (← dotsAndClose))
  else
    return .listed (← exposedItems (← get).ahead.length)

/-! ## Headers and imports -/

/-- The number of tokens up to the brace that closes `depth + 1` open ones,
    itself included. -/
def closingBrace? (depth : Nat) : List Token → Option Nat
  | [] => none
  | t :: tokens =>
    match t.kind, depth with
    | .opening .brace, depth => (closingBrace? (depth + 1) tokens).map (· + 1)
    | .closing .brace, 0 => some 1
    | .closing .brace, depth + 1 => (closingBrace? depth tokens).map (· + 1)
    | _, depth => (closingBrace? depth tokens).map (· + 1)

/-- Reads up to the brace that closes the one at `opener`. -/
def settings (opener : Span) : Reader Unit := do
  match closingBrace? 0 (← get).ahead with
  | some n => modify (·.skip n)
  | none => failAt (.unclosed Bracket.brace.openText) opener

/-- Reads the word before `module`, if there is one. -/
def moduleKind : Reader ModuleKind := do
  if ← accept (.keyword .portWord) then return .port
  else if ← accept (.keyword .effectWord) then return .effect
  else return .normal

/-- Reads a header. -/
def header : Reader ModuleHeader := do
  let first ← here
  let kind ← moduleKind
  expectKeyword .moduleWord (.keyword .moduleWord)
  let name ← moduleName (.nameAfter .moduleWord)
  -- Only modules of effects have settings, whose contents do not matter.
  if kind = .effect then
    expectKeyword .whereWord .whereClause
    settings (← expect (.opening .brace) .settingsBrace)
  expectKeyword .exposingWord (.exposingAfter name.node.dotted)
  let exposed ← exposing
  expectEnd .header
  return ⟨kind, name, exposed, false, ← since first⟩

/-- Reads the alias of an import, if there is one. -/
def importAlias : Reader (Option Name) := do
  if ← accept (.keyword .asWord) then
    let name ← upperName .aliasName
    if isDotted name.node then failAt (.dottedAlias name.node) name.span
    else return some name
  else return none

/-- Reads the exposing list of an import, if there is one. -/
def importExposing : Reader (Option Exposing) := do
  if ← accept (.keyword .exposingWord) then return some (← exposing) else return none

/-- Reads an import. -/
def import_ : Reader Import := do
  let first ← here
  expectKeyword .importWord (.keyword .importWord)
  let name ← moduleName (.nameAfter .importWord)
  let asName ← importAlias
  let exposed ← importExposing
  expectEnd .importItem
  return ⟨name, asName, exposed, ← since first⟩

/-! ## Types -/

/-- Checks the tokens of a type, which stand after `before`: there are some, their
    brackets are balanced, none is `=`, and the last is no arrow. -/
def checkType (owner : String) (before : Span) (tokens : List Token) :
    Except SyntaxError Unit := do
  if tokens.isEmpty then throw ⟨.expected (.typeOf owner), before⟩
  balanced tokens
  match tokens.find? (·.kind == .equals) with
  | some bad => throw ⟨.equalsInType, bad.span⟩
  | none => pure ()
  match tokens.getLast? with
  | some last =>
    if last.kind = .arrow then throw ⟨.typeEndsWithArrow owner, last.span⟩
  | none => pure ()

/-- Reads the rest of the item as the type of `owner`. -/
def typeAnnotation (owner : String) : Reader String := do
  let before ← behind
  let tokens ← remaining
  checkType owner before tokens
  return render tokens

/-- Reads a signature. -/
def signature : Reader Signature := do
  let first ← here
  let name ← declarationName
  let _ ← expect .colon .colon
  let annotation ← typeAnnotation name.node
  return ⟨name, annotation, ← since first⟩

/-- Reads a type alias. -/
def aliasDeclaration (doc : Option (Located String)) : Reader AliasDeclaration := do
  let first ← here
  expectKeyword .typeWord (.keyword .typeWord)
  expectKeyword .aliasWord (.keyword .aliasWord)
  let name ← typeName
  let parameters ← typeParameters
  let _ ← expect .equals (.equalsAfterAlias name.node)
  let annotation ← typeAnnotation name.node
  return ⟨doc, name, parameters, annotation, ← since first⟩

/-- A constructor made of the tokens of one variant; `before` is blamed if there
    are none. -/
def constructor (before : Span) : List Token → Except SyntaxError Constructor
  | [] => .error ⟨.expected .constructorName, before⟩
  | t :: tokens =>
    match t.kind with
    | .upperName name =>
      if isDotted name then .error ⟨.expected (.constructorNameNot t.text), t.span⟩
      else .ok ⟨⟨name, t.span⟩, (atoms tokens).map (render ·.tokens), (Atom.mk t tokens).span⟩
    | _ => .error ⟨.expected (.constructorNameNot t.text), t.span⟩

/-- Reads a custom type. -/
def typeDeclaration (doc : Option (Located String)) : Reader TypeDeclaration := do
  let first ← here
  expectKeyword .typeWord (.keyword .typeWord)
  let name ← typeName
  let parameters ← typeParameters
  let equals ← expect .equals (.equalsAfterType name.node)
  let tokens ← remaining
  -- Bars inside brackets part nothing, so the brackets are checked first.
  balanced tokens
  let constructors ← (partsAtTop .pipe 0 tokens).mapM (constructor equals ·)
  return ⟨doc, name, parameters, constructors, ← since first⟩

/-! ## Ports and operators -/

/-- Reads a port. -/
def portDeclaration : Reader PortDeclaration := do
  let first ← here
  expectKeyword .portWord (.keyword .portWord)
  let name ← declarationName
  let _ ← expect .colon (.colonAfterPort name.node)
  let annotation ← typeAnnotation name.node
  return ⟨name, annotation, ← since first⟩

/-- The associativity that a word stands for. -/
def associativity? : TokenKind → Option Associativity
  | .lowerName word =>
    if word = "left" then some .left
    else if word = "right" then some .right
    else if word = "non" then some .non
    else none
  | _ => none

/-- The precedence from 0 to 9 that a number without sign, point or exponent
    stands for. -/
def precedence? : TokenKind → Option UInt8
  | .number digits =>
    let value := digits.toList.foldl (fun n d => 10 * n + (d.toNat - '0'.toNat)) 0
    if digits.toList.all Char.isDigit && !digits.isEmpty && value ≤ 9 then some value.toUInt8
    else none
  | _ => none

/-- The operator between parentheses. The bar alone is one, `=` and `->` are not. -/
def operatorText? : TokenKind → Option String
  | .operator symbols => some symbols
  | .pipe => some TokenKind.pipe.text
  | _ => none

/-- Reads a token that stands for something, or blames it. -/
def reading {α : Type} (what : Expected) (meaning : TokenKind → Option α)
    (blame : Expected) : Reader (Located α) := do
  let t ← next what
  match meaning t.kind with
  | some value => return ⟨value, t.span⟩
  | none => failAt (.expected blame) t.span

/-- Reads the fixity of an operator. -/
def operatorDeclaration : Reader OperatorDeclaration := do
  let first ← here
  expectKeyword .infixWord (.keyword .infixWord)
  let associativity ← reading .associativity associativity? .associativity
  let precedence ← reading .precedence precedence? .precedenceInRange
  let _ ← expect (.opening .paren) .openBeforeOperator
  let operator ← reading .operator operatorText? .operator
  let _ ← expect (.closing .paren) .closeAfterOperator
  let _ ← expect .equals .equalsAfterOperator
  let function ← declarationName
  expectEnd .operator
  return ⟨associativity.node, precedence.node, operator, function, ← since first⟩

/-! ## Definitions -/

/-- Does an expression that ends with such a token lack its end? -/
def isDangling : TokenKind → Bool
  | .operator _ | .equals | .colon | .pipe | .arrow | .backslash | .comma => true
  | _ => false

/-- How often a keyword stands among the tokens. -/
def countKeyword (word : Keyword) (tokens : List Token) : Nat :=
  tokens.countP (·.kind == .keyword word)

/-- The place of the first `word` among the tokens, or else `before`. -/
def firstKeyword (word : Keyword) (before : Span) (tokens : List Token) : Span :=
  ((tokens.find? (·.kind == .keyword word)).map (·.span)).getD before

/-- Checks the tokens of a body, which stand after `before`: there are some, the
    last one does not dangle, and as many `if` stand there as `then` and as
    `else`, as many `let` as `in`, and as many `case` as `of`. -/
def checkBody (owner : String) (before : Span) (tokens : List Token) :
    Except SyntaxError Unit := do
  match tokens.getLast? with
  | none => throw ⟨.noBody owner, before⟩
  | some last =>
    if isDangling last.kind then throw ⟨.bodyEndsWith owner last.text, last.span⟩
  let count (word : Keyword) : Nat := countKeyword word tokens
  let first (word : Keyword) : Span := firstKeyword word before tokens
  -- The words are counted, not matched up: which of them belong together stays open.
  if count .ifWord ≠ count .thenWord ∨ count .ifWord ≠ count .elseWord then
    throw ⟨.unbalancedIf, first .ifWord⟩
  if count .letWord ≠ count .inWord then throw ⟨.unbalancedLet, first .letWord⟩
  if count .caseWord ≠ count .ofWord then throw ⟨.unbalancedCase, first .caseWord⟩

/-- The place of some tokens, from the first to the last one. -/
def spanOf : List Token → Span
  | [] => .dummy
  | t :: tokens => (Atom.mk t tokens).span

/-- The arguments and the body that the tokens after the name `owner` make up. -/
def argumentsAndBody (owner : Name) (tokens : List Token) :
    Except SyntaxError (List (Located String) × Span) := do
  balanced tokens
  match splitAtTop? .equals 0 tokens with
  | none => throw ⟨.expected (.equalsInDefinition owner.node), owner.span⟩
  | some (before, equals, body) =>
    checkBody owner.node equals.span body
    return ((atoms before).map fun a => ⟨render a.tokens, a.span⟩, spanOf body)

/-- Reads a definition. -/
def valueDeclaration (doc : Option (Located String)) (signature : Option Signature) :
    Reader ValueDeclaration := do
  let first ← here
  let name ← declarationName
  let (arguments, body) ← argumentsAndBody name (← remaining)
  return ⟨doc, signature, name, arguments, body, ← since first⟩

/-- Reads a declaration of a module of the kind `kind`; `doc` and `signature` are
    those that stand before it. -/
def declaration (kind : ModuleKind) (doc : Option (Located String))
    (signature : Option Signature) : Reader Declaration := do
  match (← get).ahead.head? with
  | none => failAt (.expected .declaration) .dummy
  | some t =>
    match t.kind with
    | .keyword .typeWord =>
      if (← peekSecond?) = some (.keyword .aliasWord) then
        return .synonym (← aliasDeclaration doc)
      else return .type (← typeDeclaration doc)
    | .keyword .portWord =>
      if kind = .port then return .port (← portDeclaration)
      else failAt .portOutsidePortModule t.span
    | .keyword .infixWord => return .operator (← operatorDeclaration)
    | .lowerName _ => return .value (← valueDeclaration doc signature)
    | .opening .paren => failAt .operatorDefinition t.span
    | _ => failAt (.unexpectedAtTop t.text) t.span

end Reader

end ElmIntake
