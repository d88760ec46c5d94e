import SLFront.Token

/-!
# Operator precedence

An infix operator binds its operands as tightly as its level says. All operators of a level
associate to the left. A prefix operator binds tighter than any infix one.
-/
namespace SLFront

/-- The levels of precedence, from the loosest to the tightest. -/
inductive Precedence
  /-- Whatever is no operator. -/
  | lowest
  /-- Kept for an equality operator. -/
  | equality
  | comparison
  | term
  | factor
  | unary
  /-- Kept for grouping. -/
  | call
  | highest
deriving DecidableEq, Repr

namespace Precedence

/-- All levels. -/
def all : List Precedence := [lowest, equality, comparison, term, factor, unary, call, highest]

/-- The level as a number. -/
def level : Precedence → Int
  | lowest => 0
  | equality => 1
  | comparison => 2
  | term => 3
  | factor => 4
  | unary => 5
  | call => 6
  | highest => 7

/-- The name of the level. -/
def name : Precedence → String
  | lowest => "LOWEST"
  | equality => "EQUALITY"
  | comparison => "COMPARISON"
  | term => "TERM"
  | factor => "FACTOR"
  | unary => "PREFIX"
  | call => "CALL"
  | highest => "HIGHEST"

end Precedence

/-- The infix operators, from the loosest to the tightest. -/
def Symbol.operators : List Symbol :=
  [.lessThan, .greaterThan, .plus, .minus, .multiply, .divide, .power]

/-- How tightly a symbol binds as an infix operator, if it is one. -/
def Symbol.precedence? : Symbol → Option Precedence
  | .lessThan | .greaterThan => some .comparison
  | .plus | .minus => some .term
  | .multiply | .divide | .power => some .factor
  | _ => none

/-- How tightly a token binds as an infix operator, if it is one. -/
def Token.Kind.precedence? : Token.Kind → Option Precedence
  | .symbol s => s.precedence?
  | _ => none

end SLFront
