import SLFront.Text.LetterCase.Table

/-!
# Letter case of whole texts

`lower` and `upper` change the case of a text by the full mappings, under which a letter may become
several characters. One mapping looks at its surroundings: a capital sigma that ends a word becomes
the final sigma. ASCII characters change as core changes them.
-/
namespace SLFront.Text.LetterCase

/-- Where the first run that holds a character moves it. -/
def shift? (runs : List Run) (c : Char) : Option Char :=
  (runs.findSome? (·.map? c.toNat)).map Char.ofNat

/-- Whether a character is ASCII. -/
def isAscii (c : Char) : Bool := c.toNat < 0x80

/-! ## Lower case -/

/-- The lower case of a character, whatever stands around it. -/
def lowerChar (c : Char) : List Char :=
  if isAscii c then [c.toLower]
  else if c = 'İ' then ['i', '\u0307']
  else [(shift? lowerRuns c).getD c]

/-- Whether the nearest character that casing does not look through is a letter with case. -/
def meetsCased (cs : List Char) : Bool :=
  (cs.dropWhile (CodeRange.anyContains ignorableRanges)).head?.any
    (CodeRange.anyContains casedRanges)

/-- A sigma ends a word when a letter stands before it and none after it. The text before it is
given from its end to its start. -/
def endsWord (before after : List Char) : Bool := meetsCased before && !meetsCased after

/-- The lower case of `cs`, which comes after `before`. -/
def lowerAfter (before : List Char) : List Char → List Char
  | [] => []
  | c :: after =>
    (if c = 'Σ' then [if endsWord before after then 'ς' else 'σ'] else lowerChar c) ++
      lowerAfter (c :: before) after

/-- The lower case of a text. -/
def lower (s : String) : String := String.ofList (lowerAfter [] s.toList)

theorem lowerChar_of_ascii {c : Char} (h : isAscii c) : lowerChar c = [c.toLower] := by
  simp [lowerChar, h]

/-! ## Upper case -/

/-- The upper case of a character. -/
def upperChar (c : Char) : List Char :=
  if isAscii c then [c.toUpper]
  else match upperExpansions.lookup c.toNat with
    | some codes => codes.map Char.ofNat
    | none => [(shift? upperRuns c).getD c]

/-- The upper case of a text. -/
def upper (s : String) : String := String.ofList (s.toList.flatMap upperChar)

end SLFront.Text.LetterCase
