import SLFront.SyntaxError

/-!
# Notices

While it works the parser leaves notices of what it does, for those who watch it.
-/
namespace SLFront

/-- A remark of the parser. -/
inductive Notice
  /-- A syntax error was found. -/
  | syntaxError (e : SyntaxError)
  /-- A statement was recognised by its keyword and passed over. -/
  | placeholder (keyword : Token)
  /-- An expression was asked for with so low a precedence that it reached what is no operator. -/
  | noInfix (kind : Token.Kind)
  /-- A program was read to its end. -/
  | finished (statements errors : Nat)
deriving DecidableEq, Repr

namespace Notice

/-- The wording of a notice. -/
def message : Notice → String
  | syntaxError e => s!"{e.kind.text} at {e.location.text}: {e.message}"
  | placeholder keyword =>
    s!"'{keyword.lexeme}' statements are not parsed yet (line {keyword.line})"
  | noInfix kind => s!"no infix parser for {kind.name}"
  | finished statements errors => s!"parsed {statements} statements with {errors} errors"

end Notice
end SLFront
