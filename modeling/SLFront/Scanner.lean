import SLFront.Lexeme
import SLFront.LexicalError

/-!
# Scanning a source text

A scanner is a place in a source text: the text that is left, with the offset, the line and the
offset of the line's first character. `scan` reads one lexeme and gives the token or, for a
forbidden word, the fatal error; either way the scanner stands after the lexeme, so that scanning
can go on. At the end of the text every scan gives the token for the end of input.
-/
namespace SLFront

/-- A place in a source text. -/
structure Scanner where
  filename : String
  /-- The text that is left. -/
  rest : List Char
  /-- How many characters have been read. -/
  offset : Nat := 0
  /-- The number of the line, counted from one. -/
  line : Nat := 1
  /-- The offset of the first character of the line. -/
  lineStart : Nat := 0
deriving DecidableEq, Repr

namespace Scanner

/-- The start of a source text. -/
def start (source filename : String) : Scanner := { filename, rest := source.toList }

/-- The scanner after the gap in front of the next lexeme. -/
def skipGap (s : Scanner) : Scanner :=
  { s with rest := afterGap s.rest, offset := s.offset + (gap s.rest).length }

/-- The location of the next character. -/
def location (s : Scanner) : Location where
  filename := s.filename
  line := s.line
  column := (s.offset : Int) - s.lineStart + 1
  offset := s.offset

/-- The scanner after a lexeme. A line feed starts a new line. -/
def skipLexeme (s : Scanner) (lexeme : Lexeme) : Scanner :=
  let offset := s.offset + lexeme.chars.length
  if lexeme.kind = .newline then
    { s with rest := lexeme.rest, offset, line := s.line + 1, lineStart := offset }
  else { s with rest := lexeme.rest, offset }

/-- A lexeme as the token it is, or as the error that it is a forbidden word. -/
def tokenOf (lexeme : Lexeme) (location : Location) : Except LexicalError Token :=
  let text := String.ofList lexeme.chars
  match lexeme.kind with
  | .keyword k =>
    if k.isForbidden then .error (.forbidden text location) else .ok ⟨.keyword k, text, location⟩
  | kind => .ok ⟨kind, text, location⟩

/-- Scan one lexeme. -/
def scan : EStateM LexicalError Scanner Token := fun s =>
  let s := s.skipGap
  match s.rest with
  | [] => .ok ⟨.endOfInput, "", s.location⟩ s
  | c :: cs =>
    let lexeme := Lexeme.first c cs
    match tokenOf lexeme s.location with
    | .ok t => .ok t (s.skipLexeme lexeme)
    | .error e => .error e (s.skipLexeme lexeme)

@[simp] theorem rest_skipLexeme (s : Scanner) (lexeme : Lexeme) :
    (s.skipLexeme lexeme).rest = lexeme.rest := by
  unfold skipLexeme; dsimp only; split <;> rfl

theorem length_rest_skipGap_le (s : Scanner) : s.skipGap.rest.length ≤ s.rest.length := by
  have := length_gap_add_length_afterGap s.rest
  simp only [skipGap]
  omega

theorem tokenOf_ne_endOfInput {lexeme : Lexeme} {location : Location} {t : Token}
    (hk : lexeme.kind ≠ .endOfInput) (h : tokenOf lexeme location = .ok t) :
    t.kind ≠ .endOfInput := by
  unfold tokenOf at h
  dsimp only at h
  split at h
  · split at h
    · cases h
    · cases h; simp
  · cases h; exact hk

/-- A scan that gives a token other than the end of input takes text away, and one that gives the
end of input gives none back. -/
theorem length_rest_of_scan_eq_ok {s s' : Scanner} {t : Token} (h : s.scan = .ok t s') :
    s'.rest.length + (if t.kind = .endOfInput then 0 else 1) ≤ s.rest.length := by
  have hgap := length_rest_skipGap_le s
  unfold scan at h
  dsimp only at h
  split at h
  · cases h; simpa using hgap
  · rename_i c cs heq
    have := Lexeme.length_rest_le c cs
    simp only [heq, List.length_cons] at hgap
    split at h
    · rename_i ht
      cases h
      rw [if_neg (tokenOf_ne_endOfInput (Lexeme.kind_ne_endOfInput c cs) ht), rest_skipLexeme]
      omega
    · cases h

/-- A scan that meets a forbidden word takes the word away. -/
theorem length_rest_of_scan_eq_error {s s' : Scanner} {e : LexicalError}
    (h : s.scan = .error e s') : s'.rest.length < s.rest.length := by
  have hgap := length_rest_skipGap_le s
  unfold scan at h
  dsimp only at h
  split at h
  · cases h
  · rename_i c cs heq
    have := Lexeme.length_rest_le c cs
    simp only [heq, List.length_cons] at hgap
    split at h
    · cases h
    · cases h
      rw [rest_skipLexeme]
      omega

end Scanner
end SLFront
