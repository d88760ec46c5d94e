import SLFront.Diagnostic

/-!
# Lexical errors

The only fatal error: a word that the language reserves and forbids. It ends the reading of a source
text; no token stands for the word.
-/
namespace SLFront

/-- A fatal error, with the offending text. -/
structure LexicalError where
  lexeme : String
  diagnostic : Diagnostic
deriving DecidableEq, Repr

namespace LexicalError

/-- Where the offending text starts. -/
abbrev location (e : LexicalError) : Location := e.diagnostic.location

/-- The code of a forbidden word, with its description. -/
def forbiddenCode : String × String := ("L001", "Reserved keyword is not allowed")

/-- The error for a forbidden word. -/
def forbidden (lexeme : String) (location : Location) : LexicalError where
  lexeme
  diagnostic :=
    { message := s!"Token '{lexeme}' is reserved but not allowed"
      location
      severity := "error"
      code := some forbiddenCode.1
      help := some <| s!"'{Text.LetterCase.lower lexeme}' is a reserved word of the language " ++
        "but programs may not use it."
      suggestions := some ["Remove the statement", "Rename the identifier"] }

end LexicalError
end SLFront
