import ElmIntake.Diagnostic
import ElmIntake.Token

/-! # Syntax errors

    Everything that can be wrong with a list of tokens, with its wording. -/

namespace ElmIntake

/-- What was expected at a place where something else stands. -/
inductive Expected where
  | keyword (word : Keyword)
  | nameAfter (word : Keyword)
  | whereClause
  | settingsBrace
  | exposingAfter (moduleName : String)
  | exposingParen
  | closeAfterDots
  | commaOrClose
  | exposedName
  | dotsAfter (owner : String)
  | operator
  | closeAfterOperator
  | openBeforeOperator
  | equalsAfterOperator
  | aliasName
  | name
  | colon
  | colonAfterPort (owner : String)
  | typeName
  | typeOf (owner : String)
  | equalsAfterAlias (owner : String)
  | equalsAfterType (owner : String)
  | constructorName
  | constructorNameNot (found : String)
  | associativity
  | precedence
  | precedenceInRange
  | equalsInDefinition (owner : String)
  | declaration
  deriving Repr, DecidableEq

/-- The words for what was expected. -/
def Expected.text : Expected → String
  | keyword word => s!"`{word.text}`"
  | nameAfter word => s!"a module name after `{word.text}`"
  | whereClause => "`where` in effect module declaration"
  | settingsBrace => "`\x7b` after `where`"
  | exposingAfter moduleName => s!"`exposing` after module name `{moduleName}`"
  | exposingParen => "`(` after `exposing`"
  | closeAfterDots => "`)` after `..`"
  | commaOrClose => "`,` or `)` in the exposing list"
  | exposedName => "an exposed name"
  | dotsAfter owner => s!"`(..)` after `{owner}`"
  | operator => "an operator"
  | closeAfterOperator => "`)` after the operator"
  | openBeforeOperator => "`(` before the operator"
  | equalsAfterOperator => "`=` after the operator"
  | aliasName => "an alias after `as`"
  | name => "a name"
  | colon => "`:`"
  | colonAfterPort owner => s!"`:` after the port `{owner}`"
  | typeName => "a type name"
  | typeOf owner => s!"a type for `{owner}`"
  | equalsAfterAlias owner => s!"`=` after the type alias `{owner}`"
  | equalsAfterType owner => s!"`=` after the type `{owner}`"
  | constructorName => "a constructor name"
  | constructorNameNot found => s!"a constructor name but found `{found}`"
  | associativity => "`left`, `right` or `non`"
  | precedence => "a precedence"
  | precedenceInRange => "a precedence between 0 and 9"
  | equalsInDefinition owner => s!"`=` in the definition of `{owner}`"
  | declaration => "a declaration"

/-- Kinds of item that must end where they are complete. -/
inductive Complete where
  | header
  | importItem
  | operator
  deriving Repr, DecidableEq

/-- The words for such an item. -/
def Complete.text : Complete → String
  | header => "module declaration"
  | importItem => "import"
  | operator => "infix declaration"

/-- Why tokens are not a module. -/
inductive SyntaxCause where
  | expected (what : Expected)
  | notInFirstColumn
  | documentedOnSameLine
  | importAfterDeclaration
  | secondHeader
  | signatureWithoutDefinition (name : String)
  | trailing (found : String) (item : Complete)
  | dottedAlias (name : String)
  | dottedDeclaration (name : String)
  | dottedType (name : String)
  | dottedVariable (name : String)
  | unexpectedAtTop (found : String)
  | unexpectedExposed (found : String)
  | emptyExposing
  | portOutsidePortModule
  | operatorDefinition
  | equalsInType
  | typeEndsWithArrow (owner : String)
  | noBody (owner : String)
  | bodyEndsWith (owner : String) (found : String)
  | unbalancedIf
  | unbalancedLet
  | unbalancedCase
  | unmatched (bracket : String)
  | unclosed (bracket : String)
  deriving Repr, DecidableEq

/-- The wording of a cause. -/
def SyntaxCause.message : SyntaxCause → String
  | expected what => "Expected " ++ what.text
  | notInFirstColumn => "Top-level declarations must start in the first column"
  | documentedOnSameLine => "A documentation comment must be followed by a new line"
  | importAfterDeclaration => "Imports must come before any declaration"
  | secondHeader => "A file can only contain one module declaration"
  | signatureWithoutDefinition name =>
    s!"The type annotation for `{name}` is not followed by its definition"
  | trailing found item => s!"Unexpected `{found}` after the {item.text}"
  | dottedAlias name => s!"The alias `{name}` cannot contain dots"
  | dottedDeclaration name => s!"`{name}` is not a valid declaration name"
  | dottedType name => s!"The type name `{name}` cannot be qualified"
  | dottedVariable name => s!"`{name}` is not a valid type variable"
  | unexpectedAtTop found => s!"Unexpected `{found}` at the top level"
  | unexpectedExposed found => s!"Unexpected `{found}` in the exposing list"
  | emptyExposing => "The exposing list cannot be empty"
  | portOutsidePortModule => "Port declarations are only allowed in a `port module`"
  | operatorDefinition => "Custom operators cannot be defined at the top level"
  | equalsInType => "Unexpected `=` in a type"
  | typeEndsWithArrow owner => s!"The type of `{owner}` ends with `->`"
  | noBody owner => s!"The definition of `{owner}` has no body"
  | bodyEndsWith owner found => s!"The definition of `{owner}` ends unexpectedly after `{found}`"
  | unbalancedIf => "Every `if` needs a matching `then` and `else`"
  | unbalancedLet => "Every `let` needs a matching `in`"
  | unbalancedCase => "Every `case` needs a matching `of`"
  | unmatched bracket => s!"Unmatched `{bracket}`"
  | unclosed bracket => s!"Unclosed `{bracket}`"

/-- A cause and the place to blame. -/
structure SyntaxError where
  cause : SyntaxCause
  span : Span
  deriving Repr, DecidableEq

namespace SyntaxError

/-- The wording of the error. -/
def message (e : SyntaxError) : String := e.cause.message

/-- Printed form: the message and its line. -/
protected def toString (e : SyntaxError) : String := s!"{e.message} at line {e.span.line}"

instance : ToString SyntaxError := ⟨SyntaxError.toString⟩

/-- The error as a diagnostic. -/
def diagnostic (e : SyntaxError) : Diagnostic := .error e.span e.message

end SyntaxError

end ElmIntake
