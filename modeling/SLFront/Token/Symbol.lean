/-!
# Symbols

The characters that are tokens by themselves.
-/
namespace SLFront

/-- A single-character token. -/
inductive Symbol
  | semicolon | doubleQuote | singleQuote | divide | multiply
  | leftBrace | rightBrace | leftBracket | rightBracket | leftParen | rightParen
  | colon | assign | greaterThan | lessThan | plus | minus | power
deriving DecidableEq, Repr, Inhabited

namespace Symbol

/-- The character of the symbol. -/
def char : Symbol → Char
  | semicolon => ';' | doubleQuote => '"' | singleQuote => '\''
  | divide => '/' | multiply => '*'
  | leftBrace => '{' | rightBrace => '}'
  | leftBracket => '[' | rightBracket => ']'
  | leftParen => '(' | rightParen => ')'
  | colon => ':' | assign => '=' | greaterThan => '>' | lessThan => '<'
  | plus => '+' | minus => '-' | power => '^'

/-- The name of the symbol's token type. -/
def name : Symbol → String
  | semicolon => "SEMICOLON" | doubleQuote => "DOUBLE_QUOTE" | singleQuote => "SINGLE_QUOTE"
  | divide => "DIVIDE" | multiply => "MULTIPLY"
  | leftBrace => "LEFT_BRACE" | rightBrace => "RIGHT_BRACE"
  | leftBracket => "LEFT_BRACKET" | rightBracket => "RIGHT_BRACKET"
  | leftParen => "LEFT_PAREN" | rightParen => "RIGHT_PAREN"
  | colon => "COLON" | assign => "ASSIGN" | greaterThan => "GREATER_THAN"
  | lessThan => "LESS_THAN" | plus => "PLUS" | minus => "MINUS" | power => "POWER"

/-- All symbols. -/
def all : List Symbol :=
  [semicolon, doubleQuote, singleQuote, divide, multiply, leftBrace, rightBrace, leftBracket,
    rightBracket, leftParen, rightParen, colon, assign, greaterThan, lessThan, plus, minus, power]

/-- The symbol that a character is. -/
def ofChar? (c : Char) : Option Symbol := all.find? (·.char = c)

theorem ofChar?_eq_some_iff {c : Char} {s : Symbol} : ofChar? c = some s ↔ s.char = c := by
  constructor
  · intro h
    simpa using List.find?_some h
  · rintro rfl
    cases s <;> rfl

end Symbol
end SLFront
