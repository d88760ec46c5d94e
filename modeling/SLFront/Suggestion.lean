import SLFront.Text.EditDistance
import SLFront.Text.LetterCase
import SLFront.Token

/-!
# Suggestions for misspelt words

A word that is no reserved word may be a misspelt one. The words worth suggesting are the allowed
reserved words at edit distance one or two, nearest first and alphabetically among equally near
ones; at most three are kept. A reserved word is never suggested for itself.
-/
namespace SLFront.Suggestion

/-- The allowed reserved words in alphabetical order. -/
def candidates : List Keyword :=
  [.and, .cadena, .caso, .const, .constantes, .eval, .fin, .inicio, .logico, .matriz, .mientras,
    .not, .numerico, .or, .paso, .programa, .ref, .registro, .repetir, .retorna, .salir, .si, .sino,
    .subrutina, .tipo, .tipos, .var, .vars, .vector]

theorem mem_candidates_iff (k : Keyword) : k ∈ candidates ↔ k.isForbidden = false := by
  cases k <;> decide

/-- The edit distance between a word and a reserved word. -/
def distance (word : List Char) (k : Keyword) : Nat :=
  Text.editDistance word k.spelling.toList

/-- The candidates at a given distance from a word, in alphabetical order. -/
def candidatesAt (word : List Char) (d : Nat) : List Keyword :=
  candidates.filter (distance word · = d)

/-- The most suggestions that are made. -/
def limit : Nat := 3

/-- The reserved words to suggest for a word, best first. -/
def keywords (word : String) : List Keyword :=
  let word := (Text.LetterCase.lower word).toList
  (candidatesAt word 1 ++ candidatesAt word 2).take limit

/-- Questions to ask about a token where a statement should start: an identifier may be a misspelt
reserved word, and nothing is asked about any other token. -/
def questions (found : Token) : List String :=
  if found.kind = .identifier then
    (keywords found.lexeme).map fun k => s!"Did you mean '{k.spelling}'?"
  else []

end SLFront.Suggestion
