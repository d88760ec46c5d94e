import SLFront.Token

/-!
# Syntax trees

A program is a list of variables blocks, each with its declarations; a declaration may give a value,
which is an expression. Every node keeps the token that it comes from. Parentheses leave no node, so
the shape of an expression alone says how it is grouped. Trees compare by structure, tokens and
their locations included.

The operator text of an operator node is kept beside its token, and an infix node may still wait for
its right operand (`Expr.dangling`): trees may also be made by hand. The parser makes no such node,
and takes the operator text from the token.
-/
namespace SLFront

/-- An expression. -/
inductive Expr
  | identifier (token : Token)
  | number (token : Token)
  | typeName (token : Token)
  | prefixOp (token : Token) (operator : String) (right : Expr)
  | infixOp (token : Token) (operator : String) (left right : Expr)
  /-- An infix operator whose right operand has not been read. -/
  | dangling (token : Token) (operator : String) (left : Expr)
deriving DecidableEq, Repr

/-- A declaration of a name, with the type and the value that were written. -/
structure Declaration where
  name : Token
  typeName : Option Token := none
  value : Option Expr := none
deriving DecidableEq, Repr

/-- A variables block: the word that opens it and the declarations under it, in source order. -/
structure Block where
  keyword : Token
  declarations : List Declaration := []
deriving DecidableEq, Repr

/-- A node of a syntax tree. -/
inductive Node
  | expr (e : Expr)
  | declaration (d : Declaration)
  | block (b : Block)
deriving DecidableEq, Repr

/-- What a node is. -/
inductive Node.Kind
  | block | declaration | identifier | number | typeName | prefixOp | infixOp
deriving DecidableEq, Repr

namespace Node.Kind

/-- All kinds of nodes. -/
def all : List Kind := [block, declaration, identifier, number, typeName, prefixOp, infixOp]

/-- The word for the kind. -/
def text : Kind → String
  | block => "VariablesStatement"
  | declaration => "VarDeclaration"
  | identifier => "Identifier"
  | number => "Number"
  | typeName => "TypeExpression"
  | prefixOp => "PrefixExpression"
  | infixOp => "InfixExpression"

/-- The kind as the name of a constant. -/
def constantName : Kind → String
  | block => "VARIABLES_STATEMENT"
  | declaration => "VAR_DECLARATION"
  | identifier => "IDENTIFIER"
  | number => "NUMBER"
  | typeName => "TYPE_EXPRESSION"
  | prefixOp => "PREFIX_EXPRESSION"
  | infixOp => "INFIX_EXPRESSION"

end Node.Kind

namespace Expr

/-- The token that the expression comes from: for an operator node, the operator. -/
def token : Expr → Token
  | identifier t | number t | typeName t => t
  | prefixOp t _ _ | infixOp t _ _ _ | dangling t _ _ => t

/-- What the expression is. -/
def kind : Expr → Node.Kind
  | identifier _ => .identifier
  | number _ => .number
  | typeName _ => .typeName
  | prefixOp _ _ _ => .prefixOp
  | infixOp _ _ _ _ | dangling _ _ _ => .infixOp

/-- The operands, in source order. -/
def children : Expr → List Expr
  | identifier _ | number _ | typeName _ => []
  | prefixOp _ _ right => [right]
  | infixOp _ _ left right => [left, right]
  | dangling _ _ left => [left]

/-- The operator text of an operator node. -/
def operator? : Expr → Option String
  | identifier _ | number _ | typeName _ => none
  | prefixOp _ op _ | infixOp _ op _ _ | dangling _ op _ => some op

/-- The text of a node that is a single name or number. -/
def text? : Expr → Option String
  | identifier t | number t | typeName t => some t.lexeme
  | prefixOp _ _ _ | infixOp _ _ _ _ | dangling _ _ _ => none

end Expr

/-- The name, the type and the value of a declaration as expressions, as far as they are there. -/
def Declaration.children (d : Declaration) : List Expr :=
  .identifier d.name :: (d.typeName.map Expr.typeName).toList ++ d.value.toList

namespace Node

/-- The token that the node comes from. -/
def token : Node → Token
  | expr e => e.token
  | declaration d => d.name
  | block b => b.keyword

/-- What the node is. -/
def kind : Node → Kind
  | expr e => e.kind
  | declaration _ => .declaration
  | block _ => .block

/-- The nodes directly under a node, in source order. -/
def children : Node → List Node
  | expr e => e.children.map expr
  | declaration d => d.children.map expr
  | block b => b.declarations.map declaration

end Node
end SLFront
