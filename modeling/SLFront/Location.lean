import SLFront.Text.Quoted

/-!
# Source locations

A location says where a token starts: lines and columns count from one, offsets from zero, and all
three count code points. The numbers are integers, as tokens may also be made by hand.
-/
namespace SLFront

/-- A place in a named source text. -/
structure Location where
  filename : String
  line : Int
  column : Int
  offset : Int
deriving DecidableEq, Repr, Inhabited

namespace Location

/-- The name of a source text that has no name. -/
def unnamed : String := "<unknown>"

/-- The name of a source text that is given as a string. -/
def fromString : String := "<string>"

/-- The location as diagnostics show it. -/
def text (l : Location) : String := s!"{l.filename}:{l.line}:{l.column}"

/-- The location with all its fields, for debugging. -/
def debugText (l : Location) : String :=
  s!"SourceLocation({Text.quoted l.filename}, {l.line}, {l.column}, {l.offset})"

end Location
end SLFront
