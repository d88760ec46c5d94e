import SLFront.Diagnostic
import SLFront.Suggestion

/-!
# Syntax errors

A syntax error is a kind and the offending token; its message, help and suggestions follow from the
two. Syntax errors are collected and not fatal: after each one the parser goes on at the next
statement.
-/
namespace SLFront

/-- The kinds of syntax errors. -/
inductive SyntaxError.Kind
  /-- A token that cannot start a statement. -/
  | unexpectedExpression
  /-- A block keyword without a line break after it. -/
  | expectedNewLine
  /-- A block without a declaration. -/
  | expectedVarDeclaration
  /-- A declaration without its equal sign. -/
  | expectedEqualSign
  /-- A token that cannot start an expression. -/
  | noPrefixFound
  /-- A colon without a type after it. -/
  | expectedTypeName
  /-- A group that is not closed. -/
  | expectedClosingParen
deriving DecidableEq, Repr

namespace SyntaxError.Kind

/-- All kinds of syntax errors. -/
def all : List Kind :=
  [unexpectedExpression, expectedNewLine, expectedVarDeclaration, expectedEqualSign, noPrefixFound,
    expectedTypeName, expectedClosingParen]

/-- The word for the kind. -/
def text : Kind → String
  | unexpectedExpression => "UnexpectedExpression"
  | expectedNewLine => "ExpectedNewLine"
  | expectedVarDeclaration => "ExpectedVarDeclaration"
  | expectedEqualSign => "ExpectedEqualSign"
  | noPrefixFound => "NoPrefixFound"
  | expectedTypeName => "ExpectedTypeAnnotation"
  | expectedClosingParen => "ExpectedClosingParen"

/-- The kind as the name of a constant. -/
def constantName : Kind → String
  | unexpectedExpression => "UNEXPECTED_EXPRESSION"
  | expectedNewLine => "EXPECTED_NEW_LINE"
  | expectedVarDeclaration => "EXPECTED_VAR_DECLARATION"
  | expectedEqualSign => "EXPECTED_EQUAL_SIGN"
  | noPrefixFound => "NO_PREFIX_FOUND"
  | expectedTypeName => "EXPECTED_TYPE_ANNOTATION"
  | expectedClosingParen => "EXPECTED_CLOSING_PAREN"

/-- The code of the kind. -/
def code : Kind → String
  | unexpectedExpression => "P001"
  | expectedNewLine => "P002"
  | expectedVarDeclaration => "P003"
  | expectedEqualSign => "P004"
  | noPrefixFound => "P005"
  | expectedTypeName => "P006"
  | expectedClosingParen => "P007"

end SyntaxError.Kind

/-- A syntax error at a token. -/
structure SyntaxError where
  kind : SyntaxError.Kind
  token : Token
deriving DecidableEq, Repr

namespace SyntaxError

/-- What is wrong. -/
def message (e : SyntaxError) : String :=
  let found := e.token
  match e.kind with
  | .unexpectedExpression => s!"Unexpected expression: {found.lexeme} [{found.kind.name}]"
  | .expectedNewLine => "Expected New Line"
  | .expectedVarDeclaration => s!"Expected variable declaration, got {Text.quoted found.lexeme}"
  | .expectedEqualSign => s!"Expected '=' after identifier, got {Text.quoted found.lexeme}"
  | .noPrefixFound => s!"No prefix parser for token {found.kind.name}"
  | .expectedTypeName => s!"Expected type name after ':', got {Text.quoted found.lexeme}"
  | .expectedClosingParen => s!"Expected ')' to close the group, got {Text.quoted found.lexeme}"

/-- What the language asks for. -/
def help (e : SyntaxError) : Option String :=
  match e.kind with
  | .unexpectedExpression =>
    some "Programs are made of declarations; standalone expressions are not allowed."
  | .expectedNewLine => some s!"Declarations go on the lines after '{e.token.lexeme}'."
  | .expectedVarDeclaration => some "A variables block needs at least one 'name = value' line."
  | .noPrefixFound => some "Expressions start with a number, a name, '(', '-' or 'not'."
  | .expectedEqualSign | .expectedTypeName | .expectedClosingParen => none

/-- What may be meant. -/
def suggestions (e : SyntaxError) : List String :=
  match e.kind with
  | .unexpectedExpression => Suggestion.questions e.token
  | .expectedEqualSign => ["Add an assignment operator '='"]
  | .expectedTypeName => [.numerico, .cadena, .logico].map Keyword.spelling
  | .expectedClosingParen => ["Add a closing parenthesis ')'"]
  | .expectedNewLine | .expectedVarDeclaration | .noPrefixFound => []

/-- The code of the error's kind. -/
abbrev code (e : SyntaxError) : String := e.kind.code

/-- Where the offending token starts. -/
abbrev location (e : SyntaxError) : Location := e.token.location

/-- The error as a diagnostic. -/
def diagnostic (e : SyntaxError) : Diagnostic where
  message := e.message
  location := e.location
  severity := "error"
  code := some e.code
  help := e.help
  suggestions := if e.suggestions.isEmpty then none else some e.suggestions

/-- The error as text. -/
def text (e : SyntaxError) : String := e.diagnostic.text

end SyntaxError
end SLFront
