import SLFront.Location
import SLFront.Text.LetterCase

/-!
# Diagnostics

A diagnostic tells a person what is wrong and where. Its text has a line for the message, a line for
the location and, when there is something to say, a help line and a list of suggestions.
-/
namespace SLFront

/-- A message about a place in a source text. -/
structure Diagnostic where
  message : String
  location : Location
  /-- How serious it is, such as `error` or `warning`. -/
  severity : String
  code : Option String := none
  help : Option String := none
  suggestions : Option (List String) := none
deriving DecidableEq, Repr

namespace Diagnostic

/-- The help line. An empty help text has none. -/
def helpText (d : Diagnostic) : String :=
  match d.help with
  | none | some "" => ""
  | some help => s!"  help: {help}\n"

/-- The section of suggestions. An empty list has none. -/
def suggestionsText (d : Diagnostic) : String :=
  match d.suggestions with
  | none | some [] => ""
  | some suggestions =>
    "  suggestions:\n" ++ String.join (suggestions.map fun s => s!"    - {s}\n")

/-- The whole diagnostic as text. -/
def text (d : Diagnostic) : String :=
  s!"{Text.LetterCase.upper d.severity}: {d.message}\n  --> {d.location.text}\n" ++
    d.helpText ++ d.suggestionsText

end Diagnostic
end SLFront
