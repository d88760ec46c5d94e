/-!
# Loggers

Every record comes from a logger. The name of a logger is a path with dots between its parts, and
the journal listens to one logger, the root, and to those below it. Dots side by side cancel in
pairs, so a logger is below the root if an odd number of dots follows the root's name.
-/
namespace SLFront.Log

/-- The name of the logger above all others. -/
def rootName : String := "slc"

/-- The logger of the lexer. -/
def lexerName : String := "slc.lexer.lexer"

/-- The logger of the parser. -/
def parserName : String := "slc.parser.parser"

/-- How many dots the text starts with. -/
def leadingDots (cs : List Char) : Nat := (cs.takeWhile (· = '.')).length

/-- The logger is the root or stands below it. -/
def isBelowRoot (name : String) : Bool :=
  name = rootName ||
    (rootName.toList.isPrefixOf name.toList &&
      leadingDots (name.toList.drop rootName.toList.length) % 2 = 1)

theorem isBelowRoot_lexerName : isBelowRoot lexerName = true := by decide +kernel

theorem isBelowRoot_parserName : isBelowRoot parserName = true := by decide +kernel

end SLFront.Log
