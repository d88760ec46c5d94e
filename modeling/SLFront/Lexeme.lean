import SLFront.Token

/-!
# Lexemes and gaps

A source text is a sequence of lexemes with gaps between them. A gap is a run of blanks, which may
end in a comment that runs up to the end of the line. A lexeme is the longest one that starts at
its place: a line feed, a symbol, a word, a number, or any other character alone. Splitting loses
nothing (`gap_append_afterGap`, `Lexeme.chars_append_rest`).
-/
namespace SLFront

/-- Space, tab and carriage return stand between lexemes. The line feed is a lexeme. -/
def isBlank (c : Char) : Bool := c = ' ' || c = '\t' || c = '\r'

/-- A word starts with an ASCII letter or an underscore. -/
def isWordStart (c : Char) : Bool := c.isAlpha || c = '_'

/-- A word goes on with ASCII letters, ASCII digits and underscores. -/
def isWordPart (c : Char) : Bool := c.isAlphanum || c = '_'

/-- What a comment starts with. -/
def commentMark : List Char := ['/', '/']

/-- A comment ends where the line ends. -/
def isCommentPart (c : Char) : Bool := c ≠ '\n'

/-! ## Gaps -/

/-- The gap at the start of a text, and the text after it. -/
def splitGap (cs : List Char) : List Char × List Char :=
  let rest := cs.dropWhile isBlank
  if commentMark.isPrefixOf rest then
    (cs.takeWhile isBlank ++ rest.takeWhile isCommentPart, rest.dropWhile isCommentPart)
  else (cs.takeWhile isBlank, rest)

/-- The gap at the start of a text. -/
abbrev gap (cs : List Char) : List Char := (splitGap cs).1

/-- What follows the gap at the start of a text. -/
abbrev afterGap (cs : List Char) : List Char := (splitGap cs).2

theorem gap_append_afterGap (cs : List Char) : gap cs ++ afterGap cs = cs := by
  unfold gap afterGap splitGap
  dsimp only
  split <;> simp

theorem length_gap_add_length_afterGap (cs : List Char) :
    (gap cs).length + (afterGap cs).length = cs.length := by
  rw [← List.length_append, gap_append_afterGap]

/-! ## Lexemes -/

/-- A lexeme at the start of a text, and the text after it. -/
structure Lexeme where
  kind : Token.Kind
  chars : List Char
  rest : List Char
deriving DecidableEq, Repr

namespace Lexeme

/-- The type of a word: a reserved word in any letter case, or else an identifier. -/
def wordKind (word : List Char) : Token.Kind :=
  match Keyword.ofWord? word with
  | some k => .keyword k
  | none => .identifier

theorem wordKind_ne_endOfInput (word : List Char) : wordKind word ≠ .endOfInput := by
  unfold wordKind
  split <;> simp

/-- The lexeme that starts with `c` in a text that goes on with `cs`. -/
def first (c : Char) (cs : List Char) : Lexeme :=
  if c = '\n' then ⟨.newline, [c], cs⟩
  else if let some s := Symbol.ofChar? c then ⟨.symbol s, [c], cs⟩
  else if isWordStart c then
    let word := c :: cs.takeWhile isWordPart
    ⟨wordKind word, word, cs.dropWhile isWordPart⟩
  else if c.isDigit then ⟨.number, c :: cs.takeWhile Char.isDigit, cs.dropWhile Char.isDigit⟩
  else ⟨.illegal, [c], cs⟩

theorem chars_append_rest (c : Char) (cs : List Char) :
    (first c cs).chars ++ (first c cs).rest = c :: cs := by
  unfold first
  split
  · rfl
  split
  · rfl
  split
  · simp
  split <;> simp

theorem length_rest_le (c : Char) (cs : List Char) : (first c cs).rest.length ≤ cs.length := by
  unfold first
  split
  · exact Nat.le_refl _
  split
  · exact Nat.le_refl _
  split
  · exact (List.dropWhile_sublist _).length_le
  split
  · exact (List.dropWhile_sublist _).length_le
  · exact Nat.le_refl _

theorem chars_ne_nil (c : Char) (cs : List Char) : (first c cs).chars ≠ [] := by
  unfold first
  repeat' split
  all_goals simp

theorem kind_ne_endOfInput (c : Char) (cs : List Char) : (first c cs).kind ≠ .endOfInput := by
  unfold first
  repeat' split
  all_goals simp [wordKind_ne_endOfInput]

end Lexeme
end SLFront
