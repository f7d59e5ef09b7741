import ElmIntake.Proofs.Syntax.Balance
import ElmIntake.Proofs.Token.Words

/-! # Outlines of modules

    What is written down of a module: its names, and the stretches of source that its
    types, arguments and bodies are. An **outline** is well formed by construction. It
    tells which items the module is printed as, part by part, and which tree it is. -/

namespace ElmIntake

/-! ## Words and fragments -/

/-- The name of a value. -/
abbrev LowerWord := { word : String // isLowerWord word = true }

/-- The name of a type or a constructor, or an alias. -/
abbrev UpperWord := { word : String // isUpperWord word = true }

/-- An operator, as it is exposed. -/
abbrev OperatorWord := { word : String // isOperatorWord word = true }

/-- An operator, as its fixity is declared. -/
abbrev InfixWord := { word : String // isInfixWord word = true }

/-- The name of a module. -/
abbrev Segments := { segments : List String // areSegments segments = true }

/-- Do tokens make up a type: some, with balanced brackets, none of them `=` and the
    last one no arrow? -/
def isType (ks : List TokenKind) : Bool :=
  !ks.isEmpty && isBalanced (fun _ => true) ks && !ks.contains .equals &&
    ks.getLast? != some .arrow

/-- Do tokens make up arguments of a constructor, with balanced brackets and no bar
    outside them? -/
def isConstructorArgument (ks : List TokenKind) : Bool := isBalanced (· != .pipe) ks

/-- Are the tokens a name, the wildcard, or a bracket with all up to the one that closes
    it? -/
def isArgument (ks : List TokenKind) : Bool :=
  match ks with
  | [.lowerName _] | [.upperName _] | [.wildcard] => true
  | ks => isGroup ks

/-- Do tokens make up a body: with balanced brackets, a last one that does not dangle,
    and the words of `if`, `let` and `case` in equal numbers? -/
def isBody (ks : List TokenKind) : Bool :=
  let count (word : Keyword) : Nat := ks.count (.keyword word)
  ks.getLast?.any (!Reader.isDangling ·) && isBalanced (fun _ => true) ks &&
    count .ifWord == count .thenWord && count .ifWord == count .elseWord &&
    count .letWord == count .inWord && count .caseWord == count .ofWord

/-- A part that is cut into its tokens. -/
structure Printable extends Part where
  cut : toPart.lexes = true

/-- A stretch of source whose tokens are as `good` says. -/
structure Fragment (good : List TokenKind → Bool) extends Printable where
  isGood : good kinds = true

namespace Printable

/-- The kinds of all tokens of some parts. -/
abbrev allKinds (parts : List Printable) : List TokenKind := parts.flatMap (·.kinds)

/-- The part as it is kept in trees. -/
def rendered (part : Printable) : String := render (bare part.kinds)

/-- The atoms of the part, as they are kept in trees. -/
def renderedAtoms (part : Printable) : List String :=
  (atoms (bare part.kinds)).map (render ·.tokens)

/-! ### Words and marks -/

/-- A part that is a single token. -/
def word (kind : TokenKind) (h : (Part.ofKind kind).lexes = true) : Printable := ⟨.ofKind kind, h⟩

@[simp] theorem kinds_word {kind : TokenKind} (h : (Part.ofKind kind).lexes = true) :
    (word kind h).kinds = [kind] := rfl

abbrev keyword (keyword : Keyword) : Printable := word _ (Part.lexes_keyword keyword)

abbrev lower (name : LowerWord) : Printable := word _ (Part.lexes_lowerName name.2)

abbrev upper (name : UpperWord) : Printable := word _ (Part.lexes_upperName name.2)

abbrev moduleName (name : Segments) : Printable := word _ (Part.lexes_moduleName name.2)

abbrev operator (symbols : OperatorWord) : Printable := word _ (Part.lexes_operator symbols.2)

abbrev fixed (symbols : InfixWord) : Printable :=
  word _ (Part.lexes_symbols (isSymbolWord_of_isInfixWord symbols.2))

abbrev digit (digit : Fin 10) : Printable := word _ (Part.lexes_digit digit)

abbrev opening : Printable := word (.opening .paren) (Part.lexes_mark _ (by decide))

abbrev closing : Printable := word (.closing .paren) (Part.lexes_mark _ (by decide))

abbrev comma : Printable := word .comma (Part.lexes_mark _ (by decide))

abbrev equals : Printable := word .equals (Part.lexes_mark _ (by decide))

abbrev colon : Printable := word .colon (Part.lexes_mark _ (by decide))

abbrev pipe : Printable := word .pipe (Part.lexes_mark _ (by decide))

abbrev dots : Printable := word (.operator "..") (Part.lexes_mark _ (by decide))

end Printable

/-- What has no place. -/
def Located.nowhere {α : Type} (node : α) : Located α := ⟨node, .dummy⟩

/-! ## Exposing lists, headers and imports -/

namespace Outline

/-- An item of an exposing list. -/
inductive ExposedName where
  | value (name : LowerWord)
  | operator (symbols : OperatorWord)
  | type (name : UpperWord) (isOpen : Bool)

namespace ExposedName

def parts : ExposedName → List Printable
  | value name => [.lower name]
  | operator symbols => [.opening, .operator symbols, .closing]
  | type name false => [.upper name]
  | type name true => [.upper name, .opening, .dots, .closing]

def tree : ExposedName → ExposedItem
  | value name => .value name.1
  | operator symbols => .operator symbols.1
  | type name isOpen => .type name.1 isOpen

end ExposedName

/-- What is exposed: everything, or at least one item. -/
inductive Exposed where
  | all
  | listed (first : ExposedName) (others : List ExposedName)

namespace Exposed

def parts : Exposed → List Printable
  | all => [.opening, .dots, .closing]
  | listed first others =>
    .opening :: (first.parts ++ others.flatMap (.comma :: ·.parts)) ++ [.closing]

def tree : Exposed → Exposing
  | all => .all .dummy
  | listed first others => .listed ((first :: others).map fun name => .nowhere name.tree)

end Exposed

/-- An import. -/
structure Import where
  name : Segments
  asName : Option UpperWord
  exposed : Option Exposed

namespace Import

def parts (i : Import) : List Printable :=
  .keyword .importWord :: .moduleName i.name ::
    ((i.asName.elim [] fun name => [.keyword .asWord, .upper name]) ++
      i.exposed.elim [] fun exposed => .keyword .exposingWord :: exposed.parts)

def tree (i : Import) : ElmIntake.Import where
  moduleName := .nowhere ⟨i.name.1⟩
  asName := i.asName.map fun name => .nowhere name.1
  exposing := i.exposed.map Exposed.tree
  span := .dummy

end Import

/-! ## Declarations -/

/-- A constructor. -/
structure Constructor where
  name : UpperWord
  arguments : List (Fragment isConstructorArgument)

namespace Constructor

def parts (c : Constructor) : List Printable := .upper c.name :: c.arguments.map (·.toPrintable)

def tree (c : Constructor) : ElmIntake.Constructor :=
  ⟨.nowhere c.name.1, c.arguments.flatMap (·.renderedAtoms), .dummy⟩

end Constructor

/-- The word for an associativity. -/
def associativityWord : Associativity → LowerWord
  | .left => ⟨"left", by decide⟩
  | .right => ⟨"right", by decide⟩
  | .non => ⟨"non", by decide⟩

/-- A declaration; a value may have a signature. -/
inductive Declaration where
  | value (typing : Option (Fragment isType)) (name : LowerWord)
      (arguments : List (Fragment isArgument)) (body : Fragment isBody)
  | synonym (name : UpperWord) (parameters : List LowerWord) (typing : Fragment isType)
  | type (name : UpperWord) (parameters : List LowerWord) (first : Constructor)
      (others : List Constructor)
  | operator (associativity : Associativity) (precedence : Fin 10) (symbols : InfixWord)
      (function : LowerWord)
  | port (name : LowerWord) (typing : Fragment isType)

namespace Declaration

/-- The signature in front of a value. -/
def signatureParts (name : LowerWord) (typing : Fragment isType) : List Printable :=
  [.lower name, .colon, typing.toPrintable]

def parts : Declaration → List Printable
  | value _ name arguments body =>
    .lower name :: (arguments.map (·.toPrintable) ++ [.equals, body.toPrintable])
  | synonym name parameters typing =>
    .keyword .typeWord :: .keyword .aliasWord :: .upper name ::
      (parameters.map .lower ++ [.equals, typing.toPrintable])
  | type name parameters first others =>
    .keyword .typeWord :: .upper name ::
      (parameters.map .lower ++ .equals :: (first.parts ++
        others.flatMap (.pipe :: ·.parts)))
  | operator associativity precedence symbols function =>
    [.keyword .infixWord, .lower (associativityWord associativity), .digit precedence, .opening,
      .fixed symbols, .closing, .equals, .lower function]
  | port name typing =>
    [.keyword .portWord, .lower name, .colon, typing.toPrintable]

/-- The items that a declaration is printed as. -/
def items : Declaration → List (List Printable)
  | value (some typing) name arguments body =>
    [signatureParts name typing, (value (some typing) name arguments body).parts]
  | d => [d.parts]

/-- The tree of the signature in front of a value. -/
def signatureTree (name : LowerWord) (typing : Fragment isType) : Signature :=
  ⟨.nowhere name.1, typing.rendered, .dummy⟩

/-- The tree of the signature in front of a declaration, if there is one. -/
def signature? : Declaration → Option Signature
  | value typing name _ _ => typing.map (signatureTree name)
  | _ => none

def tree : Declaration → ElmIntake.Declaration
  | value typing name arguments _ =>
    .value ⟨none, typing.map (signatureTree name), .nowhere name.1,
      arguments.map fun argument => .nowhere argument.rendered, .dummy, .dummy⟩
  | synonym name parameters typing =>
    .synonym ⟨none, .nowhere name.1, parameters.map fun parameter => .nowhere parameter.1,
      typing.rendered, .dummy⟩
  | type name parameters first others =>
    .type ⟨none, .nowhere name.1, parameters.map fun parameter => .nowhere parameter.1,
      (first :: others).map Constructor.tree, .dummy⟩
  | operator associativity precedence symbols function =>
    .operator ⟨associativity, precedence.val.toUInt8,
      .nowhere symbols.1, .nowhere function.1, .dummy⟩
  | port name typing => .port ⟨.nowhere name.1, typing.rendered, .dummy⟩

def isPort : Declaration → Bool
  | port .. => true
  | _ => false

end Declaration

end Outline

/-! ## Modules -/

/-- The outline of a module. Only a port module declares ports. -/
structure Outline where
  isPort : Bool
  name : Segments
  exposed : Outline.Exposed
  imports : List Outline.Import
  declarations : List Outline.Declaration
  ports : declarations.any (·.isPort) = true → isPort = true

namespace Outline

def headerParts (o : Outline) : List Printable :=
  (if o.isPort then [.keyword .portWord] else []) ++
    .keyword .moduleWord :: .moduleName o.name :: .keyword .exposingWord :: o.exposed.parts

def moduleKind (o : Outline) : ModuleKind := if o.isPort then .port else .normal

def headerTree (o : Outline) : ModuleHeader :=
  ⟨o.moduleKind, .nowhere ⟨o.name.1⟩, o.exposed.tree, false, .dummy⟩

/-- The items that the module is printed as. -/
def items (o : Outline) : List (List Printable) :=
  o.headerParts :: (o.imports.map Import.parts ++ o.declarations.flatMap Declaration.items)

/-- The kinds of the tokens of each item. -/
def itemKinds (o : Outline) : List (List TokenKind) := o.items.map Printable.allKinds

/-- The parts that the module is printed as, one item behind the other. -/
def parts (o : Outline) : List Part := o.items.flatten.map (·.toPart)

theorem lexes_parts (o : Outline) : ∀ part ∈ o.parts, part.lexes = true := by
  intro part hpart
  obtain ⟨printable, -, rfl⟩ := List.mem_map.1 hpart
  exact printable.cut

theorem allKinds_parts (o : Outline) : o.parts.flatMap (·.kinds) = o.itemKinds.flatten := by
  unfold parts itemKinds
  rw [List.flatMap_map, List.flatMap_def, List.map_flatten, List.flatten_flatten, List.map_map]
  rfl

/-- The module, but for places. -/
def tree (o : Outline) : Module where
  header := o.headerTree
  documentation := none
  imports := o.imports.map Import.tree
  declarations := o.declarations.map Declaration.tree
  span := .dummy

end Outline

end ElmIntake
