import SLFront.Proofs.LineBreaks
import SLFront.Proofs.Places

/-!
# The normal form of a source text

A source text is in normal form when its lexemes stand with single spaces between them
(`normalize`). In front of a space a lexeme is the lexeme that it was (`IsLexeme.before_space`), and
nothing becomes a comment there that was none (`StartsLexeme.before_space`). So the parts of the
normal form are the lexemes of the text with other gaps (`IsDecomposition.spaced`). Hence the tokens
are the same, but for their places (`exists_tokens_normalText`), the normal form is the same for two
texts only if their tokens are (`normalText_eq_iff`), and it is its own normal form
(`normalize_reads_back`).

## Main definitions

* `normalText`, `normalize` — the lexemes of tokens, or of a source text, with spaces between them.
* `Piece.spaced` — the pieces of a text with spaces for gaps.
-/
namespace SLFront

/-- The lexemes of the tokens with a space between each two. That of the end of input is empty. -/
def normalText (ts : List Token) : String := " ".intercalate (ts.map Token.lexeme)

/-- The normal form of a source text. -/
def normalize (source : String) (filename : String := Location.fromString) :
    Except LexicalError String :=
  (tokenize source filename).map normalText

/-- The token is not one of a forbidden word. -/
def Token.IsAllowed (t : Token) : Prop := ∀ k : Keyword, t.kind = .keyword k → k.isForbidden = false

namespace Piece

/-- The lexemes of the pieces, with a space behind each. -/
def spacedChars (ps : List Piece) : List Char := ps.flatMap fun p => p.chars ++ [' ']

/-- The pieces with a space in front of each but the first one, which has this gap. -/
def spaced (g : List Char) : List Piece → List Piece
  | [] => []
  | p :: ps => { p with gap := g } :: spaced [' '] ps

/-! ## Forbidden words -/

section
variable {filename : String} {lastGap before g : List Char} {ps : List Piece} {ts : List Token}

/-- Pieces give tokens if none of them is a forbidden word. -/
theorem exists_tokens (h : ∀ t ∈ ps.map token, t.IsAllowed) (filename : String)
    (lastGap before : List Char) : ∃ ts, tokens filename lastGap before ps = .ok ts := by
  induction ps generalizing before with
  | nil => exact ⟨_, rfl⟩
  | cons p ps ih =>
    obtain ⟨hp, hps⟩ := List.forall_mem_cons.1 h
    obtain ⟨ts, hts⟩ := ih hps (before ++ (p.gap ++ p.chars))
    rw [tokens, Scanner.tokenOf_of_not_isForbidden (k := p.kind) hp, hts]
    exact ⟨_, rfl⟩

/-- Pieces that give tokens are no forbidden words. -/
theorem isAllowed_of_tokens (h : tokens filename lastGap before ps = .ok ts) :
    ∀ t ∈ ps.map token, t.IsAllowed := by
  induction ps generalizing before ts with
  | nil => simp
  | cons p ps ih =>
    rw [tokens] at h
    cases htoken : Scanner.tokenOf ⟨p.kind, p.chars, []⟩ (.behind filename (before ++ p.gap)) with
    | error e =>
      rw [htoken] at h
      cases h
    | ok t =>
      cases htokens : tokens filename lastGap (before ++ (p.gap ++ p.chars)) ps with
      | error e =>
        rw [htoken, htokens] at h
        cases h
      | ok us => exact List.forall_mem_cons.2 ⟨(Scanner.tokenOf_eq_ok htoken).2, ih htokens⟩

theorem map_token_spaced : (spaced g ps).map token = ps.map token := by
  induction ps generalizing g with
  | nil => rfl
  | cons p ps ih =>
    rw [spaced, List.map_cons, List.map_cons, ih]
    rfl

end
end Piece

/-! ## Lexemes in front of a space -/

section
variable {w rest cs g lastGap : List Char} {k : Token.Kind} {ps : List Piece} {ts : List Token}

theorem IsLexeme.before_space (h : IsLexeme w k rest) (rest' : List Char) :
    IsLexeme w k (' ' :: rest') := by
  have hstop : ∀ {p : Char → Bool}, p ' ' = false → ∀ c ∈ (' ' :: rest').head?, p c = false := by
    intro p hp c hc
    obtain rfl : ' ' = c := by simpa using hc
    exact hp
  cases h with
  | newline => exact .newline
  | symbol s => exact .symbol s
  | keyword hw hk _ => exact .keyword hw hk (hstop rfl)
  | identifier hw hk _ => exact .identifier hw hk (hstop rfl)
  | number hne hw _ => exact .number hne hw (hstop rfl)
  | illegal hnewline hsymbol hword hdigit => exact .illegal hnewline hsymbol hword hdigit

/-- In front of a space no comment comes about that was not there before. -/
theorem StartsLexeme.before_space (h : StartsLexeme (w ++ rest)) (hw : w ≠ [])
    (rest' : List Char) : StartsLexeme (w ++ ' ' :: rest') := by
  match w, hw, h with
  | [c], _, h =>
    refine ⟨h.blank, ?_⟩
    rintro ⟨cs, hcs⟩
    cases hcs
  | c :: d :: w, _, h =>
    refine ⟨h.blank, ?_⟩
    rintro ⟨cs, hcs⟩
    refine h.comment ⟨w ++ rest, ?_⟩
    cases hcs
    rfl

/-- The lexemes of a text with spaces between them have the parts that they had in the text, but for
the gaps. -/
theorem IsDecomposition.spaced (h : IsDecomposition cs ps lastGap) (hg : ∀ c ∈ g, isBlank c) :
    ∃ lastGap', IsDecomposition (g ++ Piece.spacedChars ps) (Piece.spaced g ps) lastGap' := by
  induction h generalizing g with
  | last _ =>
    rw [Piece.spacedChars, List.flatMap_nil, List.append_nil]
    exact ⟨g, .last (.blanks hg)⟩
  | @piece _ w rest _ k ps _ hstart hw _ ih =>
    obtain ⟨lastGap', hrest⟩ := ih (g := [' ']) (by simp [isBlank])
    obtain ⟨c, w', rfl, -⟩ := hw.first_eq
    have hpiece := IsDecomposition.piece (.blanks hg)
      (hstart.before_space (List.cons_ne_nil c w') (Piece.spacedChars ps))
      (hw.before_space (Piece.spacedChars ps)) hrest
    refine ⟨lastGap', ?_⟩
    rw [Piece.spaced, Piece.spacedChars, List.flatMap_cons, List.append_assoc (c :: w')]
    exact hpiece

/-- As the last lexeme is empty, a space stands behind each of the others. -/
theorem toList_normalText (h : ts.map Token.unplaced =
    ps.map Piece.token ++ [⟨.endOfInput, "", default⟩]) :
    (normalText ts).toList = Piece.spacedChars ps := by
  have hlexemes : (ts.map Token.lexeme).map String.toList = ps.map Piece.chars ++ [[]] := by
    have htexts := congrArg (List.map fun t => t.lexeme.toList) h
    simpa [Function.comp_def, Token.unplaced, Piece.token] using htexts
  rw [normalText, String.toList_intercalate, hlexemes]
  clear h hlexemes
  induction ps with
  | nil => rfl
  | cons p ps ih =>
    obtain ⟨w, ws, hws⟩ : ∃ w ws, ps.map Piece.chars ++ [[]] = w :: ws :=
      List.exists_cons_of_ne_nil (by simp)
    rw [hws] at ih
    rw [List.map_cons, List.cons_append, hws, List.intercalate_cons_cons, ih, Piece.spacedChars,
      Piece.spacedChars, List.flatMap_cons]
    rfl

end

/-! ## Source texts -/

section
variable {source source' filename filename' : String} {ts us : List Token}

/-- The tokens of the normal form of a text are those of the text, but for their places. -/
theorem exists_tokens_normalText (h : tokenize source filename = .ok ts) (filename' : String) :
    ∃ us, tokenize (normalText ts) filename' = .ok us ∧
      us.map Token.unplaced = ts.map Token.unplaced := by
  obtain ⟨ps, lastGap, hps⟩ := exists_decomposition source.toList
  have hts := map_unplaced_of_isDecomposition h hps
  rw [tokenize_eq_tokens hps] at h
  -- The same lexemes with spaces between them are no forbidden words either.
  obtain ⟨lastGap', hspaced⟩ := hps.spaced (g := []) (by simp)
  rw [List.nil_append, ← toList_normalText hts] at hspaced
  have hallowed : ∀ t ∈ (Piece.spaced [] ps).map Piece.token, t.IsAllowed := by
    rw [Piece.map_token_spaced]
    exact Piece.isAllowed_of_tokens h
  obtain ⟨us, hus⟩ := Piece.exists_tokens hallowed filename' lastGap' []
  rw [← tokenize_eq_tokens hspaced] at hus
  refine ⟨us, hus, ?_⟩
  rw [map_unplaced_of_isDecomposition hus hspaced, Piece.map_token_spaced, hts]

theorem normalText_congr (h : us.map Token.unplaced = ts.map Token.unplaced) :
    normalText us = normalText ts := by
  have hlexemes := congrArg (List.map Token.lexeme) h
  rw [List.map_map, List.map_map] at hlexemes
  exact congrArg (" ".intercalate) hlexemes

/-- Two texts have the same normal form if and only if their tokens are the same, but for their
places. -/
theorem normalText_eq_iff (h : tokenize source filename = .ok ts)
    (h' : tokenize source' filename' = .ok us) :
    normalText us = normalText ts ↔ us.map Token.unplaced = ts.map Token.unplaced := by
  refine ⟨fun hsame => ?_, normalText_congr⟩
  obtain ⟨vs, hvs, hts⟩ := exists_tokens_normalText h filename
  obtain ⟨vs', hvs', hus⟩ := exists_tokens_normalText h' filename
  rw [hsame, hvs] at hvs'
  cases hvs'
  exact hus.symm.trans hts

/-- A source text that has tokens has a normal form. The tokens of the normal form have the same
types and lexemes one by one, and it is its own normal form. -/
theorem normalize_reads_back (h : tokenize source filename = .ok ts) (filename' : String) :
    ∃ text us, text = " ".intercalate (ts.map Token.lexeme) ∧
      normalize source filename = .ok text ∧ tokenize text filename' = .ok us ∧
      us.map (fun t => (t.kind, t.lexeme)) = ts.map (fun t => (t.kind, t.lexeme)) ∧
      normalize text filename' = .ok text := by
  obtain ⟨us, hus, hsame⟩ := exists_tokens_normalText h filename'
  refine ⟨normalText ts, us, rfl, by rw [normalize, h]; rfl, hus, ?_, ?_⟩
  · have hpairs := congrArg (List.map fun t => (t.kind, t.lexeme)) hsame
    rwa [List.map_map, List.map_map] at hpairs
  · rw [normalize, hus, ← (normalText_eq_iff h hus).2 hsame]
    rfl

/-- A comment, lexemes without gaps, two slashes that are apart, and an illegal character. -/
theorem normalize_reads_back_crowded :
    let source := "VAR//\n\tx=1a/ /é\r(2"
    let text := "VAR \n x = 1 a / / é ( 2 "
    ∃ ts us, tokenize source = .ok ts ∧ normalize source = .ok text ∧ tokenize text = .ok us ∧
      us.map (fun t => (t.kind, t.lexeme)) = ts.map (fun t => (t.kind, t.lexeme)) ∧
      normalize text = .ok text := by
  intro source text
  have hrun : (tokenize source).toOption.map normalText = some text := by decide +kernel
  obtain ⟨ts, hts⟩ : ∃ ts, tokenize source = .ok ts := exists_tokens (by decide +kernel)
  obtain ⟨text', us, htext, hnormal, hus, hsame, hfixed⟩ :=
    normalize_reads_back hts Location.fromString
  rw [hts] at hrun
  obtain rfl : text' = text := htext.trans (Option.some.inj hrun)
  exact ⟨ts, us, hts, hnormal, hus, hsame, hfixed⟩

end
end SLFront
