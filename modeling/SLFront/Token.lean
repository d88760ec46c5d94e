import SLFront.Location
import SLFront.Token.Keyword
import SLFront.Token.Symbol

/-!
# Tokens

A token is a piece of source text with its type and the place where it starts. SL is organised by
lines, so the line feed is a token and not a blank. A character that belongs nowhere is a token too,
an *illegal* one, and it is left to the parser to complain about it.
-/
namespace SLFront

/-- What a token is. -/
inductive Token.Kind
  | endOfInput
  | newline
  | illegal
  | number
  | identifier
  | keyword (k : Keyword)
  | symbol (s : Symbol)
deriving DecidableEq, Repr, Inhabited

namespace Token.Kind

/-- The name of the type. -/
def name : Kind → String
  | endOfInput => "EOF"
  | newline => "NEWLINE"
  | illegal => "ILLEGAL"
  | number => "NUMBER"
  | identifier => "IDENTIFIER"
  | keyword k => k.name
  | symbol s => s.name

/-- All token types. -/
def all : List Kind :=
  [endOfInput, newline, illegal, number, identifier] ++ Keyword.all.map keyword ++
    Symbol.all.map symbol

/-- The type belongs to a reserved word. -/
def isKeyword : Kind → Bool
  | keyword _ => true
  | _ => false

/-- A token of this type can stand as the type in a declaration. -/
def isTypeName : Kind → Bool
  | identifier => true
  | keyword k => k.isTypeName
  | _ => false

/-- A token of this type opens a variables block. -/
def opensBlock : Kind → Bool
  | keyword k => k.opensBlock
  | _ => false

/-- A token of this type opens a statement that is recognised but not parsed. -/
def isPlaceholder : Kind → Bool
  | keyword k => k.isPlaceholder
  | _ => false

/-- A token of this type opens a statement. -/
def startsStatement : Kind → Bool
  | keyword k => k.startsStatement
  | _ => false

/-- Recovery from an error stops in front of a token of this type. -/
def isBoundary (k : Kind) : Bool := k = endOfInput || k.startsStatement

/-- A token of this type ends an expression whatever follows it. -/
def endsExpression (k : Kind) : Bool :=
  k = symbol .semicolon || k = newline || k = endOfInput

end Token.Kind

/-- A token. The lexeme is its source text, in the letter case of the source. -/
structure Token where
  kind : Token.Kind
  lexeme : String
  location : Location
deriving DecidableEq, Repr, Inhabited

namespace Token

/-- Short text of a token. All line breaks look the same. -/
def text (t : Token) : String :=
  if t.kind = .newline then s!"{t.kind.name}('\\n')" else s!"{t.kind.name}({Text.quoted t.lexeme})"

/-- The token with all its fields, for debugging. -/
def debugText (t : Token) : String :=
  s!"Token({t.kind.name}, {Text.quoted t.lexeme}, {t.location.debugText})"

/-- The line on which the token starts. -/
abbrev line (t : Token) : Int := t.location.line

/-- The column in which the token starts. -/
abbrev column (t : Token) : Int := t.location.column

end Token
end SLFront
