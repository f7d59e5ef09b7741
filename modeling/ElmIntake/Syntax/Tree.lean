import ElmIntake.Span

/-! # The parsed form of a module

    The tree stops at the top level: header, imports and declarations are
    taken apart, types are kept as text, and the bodies of definitions as
    spans into the source. -/

namespace ElmIntake

/-! ## Names -/

/-- A part of the tree with its place in the source. -/
structure Located (α : Type) where
  node : α
  span : Span
  deriving Repr, DecidableEq

/-- An identifier or an operator. -/
abbrev Name := Located String

/-- The name of a module, segment by segment. -/
structure ModuleName where
  segments : List String
  deriving Repr, DecidableEq

/-- The parts of a text between its dots. -/
def dottedParts : List Char → List (List Char)
  | [] => [[]]
  | c :: cs =>
    if c = '.' then [] :: dottedParts cs
    else
      match dottedParts cs with
      | [] => [[c]]
      | part :: parts => (c :: part) :: parts

namespace ModuleName

/-- The module name that is written with dots between its segments. -/
def ofDotted (name : String) : ModuleName := ⟨(dottedParts name.toList).map String.ofList⟩

/-- The name with dots between its segments. -/
def dotted (name : ModuleName) : String := ".".intercalate name.segments

end ModuleName

/-! ## Headers and imports -/

/-- What a module may do: only a port module declares ports. -/
inductive ModuleKind where
  | normal
  | port
  | effect
  deriving Repr, DecidableEq

/-- One item of an exposing list. -/
inductive ExposedItem where
  | value (name : String)
  /-- An operator between parentheses. -/
  | operator (symbols : String)
  /-- A type, `isOpen` if its constructors are exposed with it. -/
  | type (name : String) (isOpen : Bool)
  deriving Repr, DecidableEq

/-- The name under which an item is exposed. -/
def ExposedItem.name : ExposedItem → String
  | value name => name
  | operator symbols => symbols
  | type name _ => name

/-- What a module exposes, or what an import makes visible. -/
inductive Exposing where
  /-- Everything: `(..)`. -/
  | all (span : Span)
  | listed (items : List (Located ExposedItem))
  deriving Repr, DecidableEq

/-- Is `name` exposed? -/
def Exposing.exposes (e : Exposing) (name : String) : Bool :=
  match e with
  | all _ => true
  | listed items => items.any (·.node.name == name)

/-- The first line of a module. -/
structure ModuleHeader where
  kind : ModuleKind
  name : Located ModuleName
  exposing : Exposing
  /-- Set when the source has no such line. -/
  isImplicit : Bool
  span : Span
  deriving Repr, DecidableEq

/-- The header of a source without one: `module Main exposing (..)`. -/
def ModuleHeader.implicit : ModuleHeader :=
  ⟨.normal, ⟨⟨["Main"]⟩, .dummy⟩, .all .dummy, true, .dummy⟩

/-- One import. -/
structure Import where
  moduleName : Located ModuleName
  asName : Option Name
  exposing : Option Exposing
  span : Span
  deriving Repr, DecidableEq

/-! ## Declarations -/

/-- A type annotation `name : annotation`. -/
structure Signature where
  name : Name
  annotation : String
  span : Span
  deriving Repr, DecidableEq

/-- A value or function `name arguments = body`. -/
structure ValueDeclaration where
  documentation : Option (Located String)
  signature : Option Signature
  name : Name
  /-- The argument patterns, as text. -/
  arguments : List (Located String)
  body : Span
  span : Span
  deriving Repr, DecidableEq

/-- A type alias `type alias Name parameters = annotation`. -/
structure AliasDeclaration where
  documentation : Option (Located String)
  name : Name
  parameters : List Name
  annotation : String
  span : Span
  deriving Repr, DecidableEq

/-- A constructor and its argument types, as text. -/
structure Constructor where
  name : Name
  arguments : List String
  span : Span
  deriving Repr, DecidableEq

/-- A custom type `type Name parameters = A … | B …`. -/
structure TypeDeclaration where
  documentation : Option (Located String)
  name : Name
  parameters : List Name
  constructors : List Constructor
  span : Span
  deriving Repr, DecidableEq

/-- A port `port name : annotation`. -/
structure PortDeclaration where
  name : Name
  annotation : String
  span : Span
  deriving Repr, DecidableEq

/-- How operators of equal precedence group. -/
inductive Associativity where
  | left
  | right
  | non
  deriving Repr, DecidableEq

/-- The fixity of an operator and the function behind it, as in
    `infix left 6 (+) = add`. -/
structure OperatorDeclaration where
  associativity : Associativity
  precedence : UInt8
  operator : Name
  function : Name
  span : Span
  deriving Repr, DecidableEq

/-- A top-level declaration. -/
inductive Declaration where
  | value (declaration : ValueDeclaration)
  | synonym (declaration : AliasDeclaration)
  | type (declaration : TypeDeclaration)
  | port (declaration : PortDeclaration)
  | operator (declaration : OperatorDeclaration)
  deriving Repr, DecidableEq

namespace Declaration

/-- The name that is declared. -/
def name : Declaration → String
  | value d => d.name.node
  | synonym d => d.name.node
  | type d => d.name.node
  | port d => d.name.node
  | operator d => d.operator.node

/-- Where the declaration stands. -/
def span : Declaration → Span
  | value d => d.span
  | synonym d => d.span
  | type d => d.span
  | port d => d.span
  | operator d => d.span

/-- The documentation comment; ports and fixities have none. -/
def documentation : Declaration → Option String
  | value d => d.documentation.map (·.node)
  | synonym d => d.documentation.map (·.node)
  | type d => d.documentation.map (·.node)
  | port _ => none
  | operator _ => none

end Declaration

/-! ## Modules -/

/-- A whole source file. -/
structure Module where
  header : ModuleHeader
  /-- The documentation comment that follows the header. -/
  documentation : Option (Located String)
  imports : List Import
  declarations : List Declaration
  span : Span
  deriving Repr, DecidableEq

namespace Module

/-- The dotted name of the module. -/
def name (m : Module) : String := m.header.name.node.dotted

/-- May the module declare ports? -/
def isPortModule (m : Module) : Bool := m.header.kind == .port

/-- The names of all declarations, in source order. -/
def declarationNames (m : Module) : List String := m.declarations.map (·.name)

/-- The first declaration of `name`. -/
def declaration? (m : Module) (name : String) : Option Declaration :=
  m.declarations.find? (·.name == name)

/-- Does the module import the one with the dotted name `name`? -/
def importsModule (m : Module) (name : String) : Bool :=
  m.imports.any (·.moduleName.node.dotted == name)

end Module

end ElmIntake
