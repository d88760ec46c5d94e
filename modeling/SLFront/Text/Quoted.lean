import SLFront.Text.Hex
import SLFront.Text.Unprintable

/-!
# Quoted texts

Messages show a piece of source text between quotes, on one line and with every character visible.
The quotes are single unless the text holds a single quote and no double one. Inside, a backslash
stands before a backslash and before the enclosing quote, line feed, carriage return and tab have
letters, and any other character without a visible form is written by its code point.
-/
namespace SLFront.Text

/-- The quote that encloses a text. -/
def quoteMark (cs : List Char) : Char :=
  if '\'' ∈ cs ∧ '"' ∉ cs then '"' else '\''

/-- A code point as an escape sequence, with two, four or eight digits, the fewest that fit. -/
def codeEscape (n : Nat) : List Char :=
  if n < 0x100 then '\\' :: 'x' :: hexDigits 2 n
  else if n < 0x10000 then '\\' :: 'u' :: hexDigits 4 n
  else '\\' :: 'U' :: hexDigits 8 n

/-- A character as written between quotes `mark`. -/
def quotedChar (mark c : Char) : List Char :=
  if c = mark ∨ c = '\\' then ['\\', c]
  else if c = '\n' then ['\\', 'n']
  else if c = '\r' then ['\\', 'r']
  else if c = '\t' then ['\\', 't']
  else if isUnprintable c then codeEscape c.toNat
  else [c]

/-- A text between quotes. -/
def quoted (s : String) : String :=
  let mark := quoteMark s.toList
  String.ofList (mark :: s.toList.flatMap (quotedChar mark) ++ [mark])

end SLFront.Text
