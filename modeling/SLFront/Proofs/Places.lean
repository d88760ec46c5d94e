import Mathlib.Data.List.DropRight
import SLFront.Proofs.Decomposition

/-!
# Places in a source text

Where a place is can be told from the text in front of it: the line is one more than the line feeds
there, and the column one more than the characters behind the last of them (`Location.behind`). A
scanner keeps count of both (`Scanner.StandsBehind`). Every token that it gives, and every fatal
error, has the place of its first character (`StandsBehind.scan_eq_ok`,
`StandsBehind.scan_eq_error`). So the tokens of a source text, with their places, can be told from
the parts of the text (`Piece.tokens`, `tokenize_eq_tokens`).
-/
namespace SLFront

/-- The part of a text behind its last line feed. -/
def lastLine (cs : List Char) : List Char := cs.rtakeWhile (· ≠ '\n')

/-- The location right behind the first characters of a source text. -/
def Location.behind (filename : String) (before : List Char) : Location where
  filename
  line := (before.count '\n' + 1 : Nat)
  column := ((lastLine before).length + 1 : Nat)
  offset := before.length

section
variable {cs before g w rest : List Char} {k : Token.Kind}

theorem lastLine_append (h : '\n' ∉ cs) : lastLine (before ++ cs) = lastLine before ++ cs := by
  have hcs : ∀ c ∈ cs.reverse, decide (c ≠ '\n') := by
    intro c hc
    rw [List.mem_reverse] at hc
    exact decide_eq_true fun hn => h (hn ▸ hc)
  simp only [lastLine, List.rtakeWhile, List.reverse_append]
  rw [List.takeWhile_append_of_pos hcs, List.reverse_append, List.reverse_reverse]

@[simp] theorem lastLine_concat_newline : lastLine (before ++ ['\n']) = [] := by
  simp [lastLine, List.rtakeWhile]

/-- No line feed stands in a gap. -/
theorem IsGap.newline_notMem (h : IsGap g rest) : '\n' ∉ g := by
  have hblanks : ∀ bs : List Char, (∀ c ∈ bs, isBlank c) → '\n' ∉ bs := by
    intro bs hbs hn
    exact absurd (hbs _ hn) (by decide)
  cases h with
  | blanks hbs => exact hblanks _ hbs
  | @comment bs cs _ hbs hcs _ =>
    have hcs' : '\n' ∉ cs := fun hn => hcs '\n' hn rfl
    simp [commentMark, hblanks _ hbs, hcs']

/-- A line feed is a lexeme alone, and stands in no other. -/
theorem IsLexeme.newline_cases (h : IsLexeme w k rest) :
    k = .newline ∧ w = ['\n'] ∨ k ≠ .newline ∧ '\n' ∉ w := by
  have hword : isWord w → '\n' ∉ w := by
    intro hw hn
    cases w with
    | nil => cases hw
    | cons c cs =>
      simp only [isWord, Bool.and_eq_true, List.all_eq_true] at hw
      rcases List.mem_cons.1 hn with rfl | hn
      · exact absurd hw.1 (by decide)
      · exact absurd (hw.2 _ hn) (by decide)
  cases h with
  | newline => exact .inl ⟨rfl, rfl⟩
  | symbol s => exact .inr ⟨by simp, by cases s <;> decide⟩
  | keyword hw _ _ => exact .inr ⟨by simp, hword hw⟩
  | identifier hw _ _ => exact .inr ⟨by simp, hword hw⟩
  | number _ hw _ => exact .inr ⟨by simp, fun hn => absurd (hw _ hn) (by decide)⟩
  | illegal hnewline _ _ _ => exact .inr ⟨by simp, by simpa using hnewline.symm⟩

end

namespace Scanner
variable {s s' : Scanner} {before cs : List Char} {t : Token} {e : LexicalError}

/-- The scanner has counted the characters and the lines of the text in front of it. -/
structure StandsBehind (s : Scanner) (before : List Char) : Prop where
  offset : s.offset = before.length
  line : s.line = before.count '\n' + 1
  lineStart : s.lineStart + (lastLine before).length = before.length

theorem standsBehind_start (source filename : String) : (start source filename).StandsBehind [] :=
  ⟨rfl, rfl, rfl⟩

namespace StandsBehind

theorem location_eq (h : s.StandsBehind before) : s.location = .behind s.filename before := by
  have hlineStart := h.lineStart
  simp only [location, Location.behind, h.offset, h.line, Location.mk.injEq, true_and, and_true]
  omega

/-- Characters other than a line feed belong to the line. -/
theorem append (h : s.StandsBehind before) (hcs : '\n' ∉ cs) (rest : List Char) :
    { s with rest, offset := s.offset + cs.length }.StandsBehind (before ++ cs) where
  offset := by rw [h.offset, List.length_append]
  line := by rw [h.line, List.count_append, List.count_eq_zero.2 hcs, Nat.add_zero]
  lineStart := by
    rw [lastLine_append hcs, List.length_append, List.length_append, ← h.lineStart]
    exact (Nat.add_assoc ..).symm

theorem skipGap (h : s.StandsBehind before) :
    s.skipGap.StandsBehind (before ++ gap s.rest) :=
  h.append (isGap_gap s.rest).newline_notMem _

theorem skipLexeme (h : s.StandsBehind before) (c : Char) (cs : List Char) :
    (s.skipLexeme (.first c cs)).StandsBehind (before ++ (Lexeme.first c cs).chars) := by
  unfold Scanner.skipLexeme
  dsimp only
  obtain ⟨hk, hw⟩ | ⟨hk, hw⟩ := (IsLexeme.first c cs).newline_cases
  · rw [if_pos hk, hw]
    refine ⟨by simp [h.offset], by simp [h.line], ?_⟩
    simp [h.offset]
  · rw [if_neg hk]
    exact h.append hw _

end StandsBehind

@[simp] theorem filename_skipLexeme (s : Scanner) (lexeme : Lexeme) :
    (s.skipLexeme lexeme).filename = s.filename := by
  unfold skipLexeme; dsimp only; split <;> rfl

theorem tokenOf_eq_error {lexeme : Lexeme} {place : Location}
    (h : tokenOf lexeme place = .error e) :
    e = .forbidden (String.ofList lexeme.chars) place := by
  unfold tokenOf at h
  dsimp only at h
  split at h
  · split at h <;> cases h
    rfl
  · cases h

/-- Behind a gap there is the end of the text, or a lexeme that gives the token or the error. -/
theorem scan_cases (s : Scanner) :
    (s.skipGap.rest = [] ∧ s.scan = .ok ⟨.endOfInput, "", s.skipGap.location⟩ s.skipGap) ∨
    ∃ c cs, s.skipGap.rest = c :: cs ∧ s.scan =
      match tokenOf (.first c cs) s.skipGap.location with
      | .ok t => .ok t (s.skipGap.skipLexeme (.first c cs))
      | .error e => .error e (s.skipGap.skipLexeme (.first c cs)) := by
  unfold scan
  dsimp only
  split
  · rename_i hrest
    exact .inl ⟨hrest, rfl⟩
  · rename_i c cs hrest
    exact .inr ⟨c, cs, hrest, rfl⟩

/-- A token stands behind a gap. It has the place of its first character, and the scanner goes on
behind its last one. -/
theorem StandsBehind.scan_eq_ok (h : s.StandsBehind before) (hs : s.scan = .ok t s') :
    ∃ g, s.rest = g ++ (t.lexeme.toList ++ s'.rest) ∧
      t.location = .behind s.filename (before ++ g) ∧ s'.filename = s.filename ∧
      s'.StandsBehind (before ++ (g ++ t.lexeme.toList)) := by
  have hrest : s.rest = gap s.rest ++ s.skipGap.rest := (gap_append_afterGap s.rest).symm
  have hskip := h.skipGap
  refine ⟨gap s.rest, ?_⟩
  obtain ⟨-, hscan⟩ | ⟨c, cs, hcs, hscan⟩ := s.scan_cases
  · cases hscan.symm.trans hs
    exact ⟨by simpa using hrest, hskip.location_eq, rfl, by simpa using hskip⟩
  · cases htoken : tokenOf (.first c cs) s.skipGap.location with
    | error e =>
      rw [htoken] at hscan
      cases hscan.symm.trans hs
    | ok u =>
      rw [htoken] at hscan
      cases hscan.symm.trans hs
      rw [(tokenOf_eq_ok htoken).1]
      refine ⟨?_, hskip.location_eq, by simp [Scanner.skipGap], ?_⟩
      · rw [String.toList_ofList, rest_skipLexeme, Lexeme.chars_append_rest, ← hcs]
        exact hrest
      · rw [String.toList_ofList, ← List.append_assoc]
        exact hskip.skipLexeme c cs

/-- A fatal error is at a word behind a gap, and has the place of its first character. -/
theorem StandsBehind.scan_eq_error (h : s.StandsBehind before) (hs : s.scan = .error e s') :
    ∃ g w, s.rest = g ++ (w ++ s'.rest) ∧
      e = .forbidden (String.ofList w) (.behind s.filename (before ++ g)) ∧
      s'.filename = s.filename ∧ s'.StandsBehind (before ++ (g ++ w)) := by
  have hrest : s.rest = gap s.rest ++ s.skipGap.rest := (gap_append_afterGap s.rest).symm
  have hskip := h.skipGap
  obtain ⟨-, hscan⟩ | ⟨c, cs, hcs, hscan⟩ := s.scan_cases
  · cases hscan.symm.trans hs
  · cases htoken : tokenOf (.first c cs) s.skipGap.location with
    | ok u =>
      rw [htoken] at hscan
      cases hscan.symm.trans hs
    | error u =>
      rw [htoken] at hscan
      cases hscan.symm.trans hs
      refine ⟨gap s.rest, (Lexeme.first c cs).chars, ?_, ?_, by simp [Scanner.skipGap], ?_⟩
      · rw [rest_skipLexeme, Lexeme.chars_append_rest, ← hcs]
        exact hrest
      · rw [tokenOf_eq_error htoken, hskip.location_eq]
        rfl
      · rw [← List.append_assoc]
        exact hskip.skipLexeme c cs

section
variable {g w rest : List Char} {k : Token.Kind}

theorem StandsBehind.location_skipGap (h : s.StandsBehind before) (hg : IsGap g rest)
    (hrest : StartsLexeme rest) (hs : s.rest = g ++ rest) :
    gap s.rest = g ∧ s.skipGap.location = .behind s.filename (before ++ g) := by
  have hgap : gap s.rest = g := by
    rw [hs]
    exact congrArg Prod.fst (splitGap_of_isGap hg hrest)
  refine ⟨hgap, ?_⟩
  rw [h.skipGap.location_eq, hgap]
  rfl

theorem StandsBehind.scan_of_isGap (h : s.StandsBehind before) (hg : IsGap g [])
    (hs : s.rest = g) :
    ∃ s', s.scan = .ok ⟨.endOfInput, "", .behind s.filename (before ++ g)⟩ s' := by
  have hs' : s.rest = g ++ [] := by rw [hs, List.append_nil]
  have hskip := skipGap_of_isGap hg startsLexeme_nil hs'
  obtain ⟨-, hscan⟩ | ⟨c, cs, hcs, -⟩ := s.scan_cases
  · rw [(h.location_skipGap hg startsLexeme_nil hs').2] at hscan
    exact ⟨_, hscan⟩
  · rw [hskip] at hcs
    cases hcs

/-- A lexeme behind a gap is scanned as the token, or the error, at the place of its first
character. -/
theorem StandsBehind.scan_of_isLexeme (h : s.StandsBehind before) (hg : IsGap g (w ++ rest))
    (hstart : StartsLexeme (w ++ rest)) (hw : IsLexeme w k rest) (hs : s.rest = g ++ (w ++ rest)) :
    ∃ s' : Scanner, s'.rest = rest ∧ s'.filename = s.filename ∧
      s'.StandsBehind (before ++ (g ++ w)) ∧
      s.scan = match tokenOf ⟨k, w, []⟩ (.behind s.filename (before ++ g)) with
        | .ok t => .ok t s'
        | .error e => .error e s' := by
  obtain ⟨hgap, hplace⟩ := h.location_skipGap hg hstart hs
  have hskip := skipGap_of_isGap hg hstart hs
  obtain ⟨c, cs, rfl, hfirst⟩ := hw.first_eq
  have hbehind := h.skipGap.skipLexeme c (cs ++ rest)
  rw [hgap, hfirst, List.append_assoc] at hbehind
  refine ⟨s.skipGap.skipLexeme ⟨k, c :: cs, rest⟩, rest_skipLexeme .., ?_, hbehind, ?_⟩
  · rw [filename_skipLexeme, hskip]
  · obtain ⟨hnil, -⟩ | ⟨c', cs', hcs, hscan⟩ := s.scan_cases
    · rw [hskip] at hnil
      cases hnil
    · have hcons : c :: (cs ++ rest) = c' :: cs' := by
        rw [← hcs, hskip, List.cons_append]
      obtain ⟨rfl, rfl⟩ := List.cons.inj hcons
      rw [hfirst, hplace] at hscan
      exact hscan

end

end Scanner

theorem Lexer.scan_of_next_error {l l' : Lexer} {e : LexicalError} (hp : l.peeked = none)
    (h : l.next = .error e l') : l.scanner.scan = .error e l'.scanner := by
  unfold next at h
  rw [hp] at h
  dsimp only at h
  split at h
  · cases h
  · rename_i hs
    cases h
    exact hs

/-- A fatal error has the place of the first character of a word in the text that is left. -/
theorem Lexer.place_of_drain_error {l l' : Lexer} {before : List Char} {e : LexicalError}
    (hp : l.peeked = none) (hbefore : l.scanner.StandsBehind before)
    (h : l.drain = .error e l') :
    ∃ g w rest, l.scanner.rest = g ++ (w ++ rest) ∧
      e = .forbidden (String.ofList w) (.behind l.scanner.filename (before ++ g)) := by
  fun_induction drain l generalizing before with
  | case1 l e l₁ hl =>
    cases h
    obtain ⟨g, w, hrest, he, -⟩ := hbefore.scan_eq_error (scan_of_next_error hp hl)
    exact ⟨g, w, _, hrest, he⟩
  | case2 => cases h
  | case3 => cases h
  | case4 l t l₁ hl _ _ e l₂ he ih =>
    cases h
    obtain ⟨g, hrest, -, hfilename, hbehind⟩ := hbefore.scan_eq_ok (scan_of_next hp hl)
    obtain ⟨g', w, rest, hrest', rfl⟩ := ih (peeked_of_next hl) hbehind he
    refine ⟨g ++ (t.lexeme.toList ++ g'), w, rest, ?_, ?_⟩
    · rw [hrest, hrest']
      simp
    · rw [hfilename]
      simp

/-! ## The tokens of the parts of a text -/

/-- The tokens of the pieces of a text that stand behind its first characters, and the end of input;
or the first of the pieces that is forbidden, as the error. -/
def Piece.tokens (filename : String) (lastGap before : List Char) :
    List Piece → Except LexicalError (List Token)
  | [] => .ok [⟨.endOfInput, "", .behind filename (before ++ lastGap)⟩]
  | p :: ps => do
    let t ← Scanner.tokenOf ⟨p.kind, p.chars, []⟩ (.behind filename (before ++ p.gap))
    let ts ← tokens filename lastGap (before ++ (p.gap ++ p.chars)) ps
    return t :: ts

/-- The tokens are given by the lexer, or the error is. -/
def Lexer.Drains (l : Lexer) : Except LexicalError (List Token) → Prop
  | .ok ts => ∃ l', l.drain = .ok ts l'
  | .error e => ∃ l', l.drain = .error e l'

theorem Lexer.drains_of_isDecomposition {l : Lexer} {cs before lastGap : List Char}
    {ps : List Piece} (h : IsDecomposition cs ps lastGap) (hp : l.peeked = none)
    (hl : l.scanner.rest = cs) (hbefore : l.scanner.StandsBehind before) :
    l.Drains (Piece.tokens l.scanner.filename lastGap before ps) := by
  induction h generalizing l before with
  | last hg =>
    obtain ⟨s', hscan⟩ := hbefore.scan_of_isGap hg hl
    exact ⟨_, drain_of_endOfInput (next_of_scan hp hscan) rfl⟩
  | @piece g w rest lastGap k ps hg hstart hw _ ih =>
    obtain ⟨s', hrest, hfilename, hbehind, hscan⟩ := hbefore.scan_of_isLexeme hg hstart hw hl
    have hdrains := ih (l := { l with scanner := s' }) hp hrest hbehind
    dsimp only at hdrains
    rw [hfilename] at hdrains
    rw [Piece.tokens]
    cases htoken : Scanner.tokenOf ⟨k, w, []⟩ (.behind l.scanner.filename (before ++ g)) with
    | error e =>
      rw [htoken] at hscan
      exact ⟨_, drain_of_error (next_of_scan_error hp hscan)⟩
    | ok t =>
      rw [htoken] at hscan
      have hnext := next_of_scan hp hscan
      have hkind : t.kind ≠ .endOfInput := by
        rw [(Scanner.tokenOf_eq_ok htoken).1]
        exact hw.kind_ne_endOfInput
      cases htokens : Piece.tokens l.scanner.filename lastGap (before ++ (g ++ w)) ps with
      | error e =>
        rw [htokens] at hdrains
        obtain ⟨l', he⟩ := hdrains
        exact ⟨l', drain_of_next_error hnext hkind he⟩
      | ok ts =>
        rw [htokens] at hdrains
        obtain ⟨l', hts⟩ := hdrains
        exact ⟨l', drain_of_next hnext hkind hts⟩

theorem tokenize_eq_tokens {source : String} {ps : List Piece} {lastGap : List Char}
    (h : IsDecomposition source.toList ps lastGap) (filename : String) :
    tokenize source filename = Piece.tokens filename lastGap [] ps := by
  have hdrains := Lexer.drains_of_isDecomposition h (l := .start source filename) rfl rfl
    (Scanner.standsBehind_start source filename)
  have hfilename : (Lexer.start source filename).scanner.filename = filename := rfl
  rw [hfilename] at hdrains
  unfold tokenize
  cases htokens : Piece.tokens filename lastGap [] ps with
  | ok ts =>
    rw [htokens] at hdrains
    obtain ⟨l', hdrain⟩ := hdrains
    rw [hdrain]
  | error e =>
    rw [htokens] at hdrains
    obtain ⟨l', hdrain⟩ := hdrains
    rw [hdrain]

end SLFront
