import SLFront.Text.Quoted

/-!
# Failures

A record may report a failure. Of a failure the class is shown, by its first name if it has two,
and after it what there is to say.
-/
namespace SLFront.Log

/-- A failure: its class, and a text that may be missing. -/
structure Failure where
  className : String
  text : Option String := none
deriving DecidableEq, Repr

namespace Failure

/-- The classes that are given by a second name, with their first name. -/
def firstNames : List (String × String) :=
  [("IOError", "OSError"), ("EnvironmentError", "OSError")]

/-- The name that the class is shown by. -/
def shownClass (f : Failure) : String := (firstNames.lookup f.className).getD f.className

/-- The class of the failures to find a key. Their text is the key. -/
def keyClass : String := "KeyError"

/-- The classes of the failures to read a text. -/
def syntaxClasses : List String := ["SyntaxError", "IndentationError", "TabError"]

/-- What there is to say of a failure. A key stands between quotes, so that an empty one shows too.
A failure to read a text never passes without a word. -/
def detail (f : Failure) : String :=
  let text := f.text.getD ""
  if f.className = keyClass then (f.text.map Text.quoted).getD ""
  else if f.className ∈ syntaxClasses ∧ text = "" then "<no detail available>"
  else text

/-- The failure as it is shown: the class alone if there is nothing to say. -/
def line (f : Failure) : String :=
  if f.detail = "" then f.shownClass else s!"{f.shownClass}: {f.detail}"

end Failure
end SLFront.Log
