import SLFront.Proofs.Decomposition
import SLFront.Proofs.Printing
import SLFront.Proofs.ProgramReading
import SLFront.Proofs.Unplaced

/-!
# Written programs are read back

A lexeme that is followed by a space, a line break or the end of the text is read as the token that
it was written for (`Scanner.scan_of_isWellSpelled`), and so are all lexemes of a text that is
written with spaces (`Lexer.readsBack_of_spaced`). With the parser that reads spellings as what they
spell, every text of a program is parsed as the program, but for the places of its tokens
(`parse_of_isTextOf`).
-/
namespace SLFront

/-! ## Lexemes -/

theorem isBlank_eq_false {p : Char → Bool} {c : Char}
    (hp : p ' ' = false ∧ p '\t' = false ∧ p '\r' = false) (h : p c) : isBlank c = false := by
  rw [← Bool.not_eq_true]
  intro hb
  simp only [isBlank, Bool.or_eq_true, decide_eq_true_eq] at hb
  rcases hb with (rfl | rfl) | rfl <;> simp_all

/-- A character starts a lexeme if it is no blank and not the first of two slashes. -/
theorem startsLexeme_cons {c : Char} {cs : List Char} (hblank : isBlank c = false)
    (hslash : c = '/' → cs.head? ≠ some '/') : StartsLexeme (c :: cs) := by
  refine ⟨by simpa using hblank, ?_⟩
  rintro ⟨rest, hrest⟩
  obtain ⟨rfl, rfl⟩ := List.cons.inj hrest
  exact hslash rfl rfl

namespace IsLexeme
variable {w rest : List Char} {k : Token.Kind}

/-- A lexeme that is not illegal starts where no gap goes on, if no slash follows it. -/
theorem startsLexeme (h : IsLexeme w k rest) (hk : k ≠ .illegal)
    (hrest : k ≠ .newline → rest.head? ≠ some '/') : StartsLexeme (w ++ rest) := by
  have hword : isWord w → StartsLexeme (w ++ rest) := by
    intro hw
    cases w with
    | nil => cases hw
    | cons c cs =>
      simp only [isWord, Bool.and_eq_true] at hw
      refine startsLexeme_cons (isBlank_eq_false (by decide) hw.1) ?_
      rintro rfl
      exact absurd hw.1 (by decide)
  cases h with
  | newline => exact startsLexeme_cons rfl fun hslash => absurd hslash (by decide)
  | symbol s => exact startsLexeme_cons (by cases s <;> decide) fun _ => hrest (by simp)
  | keyword hw _ _ => exact hword hw
  | identifier hw _ _ => exact hword hw
  | number hne hw _ =>
    cases w with
    | nil => exact absurd rfl hne
    | cons c cs =>
      have hc := hw c List.mem_cons_self
      refine startsLexeme_cons (isBlank_eq_false (by decide) hc) ?_
      rintro rfl
      exact absurd hc (by decide)
  | illegal => exact absurd rfl hk

/-- The token of a lexeme is spelled as its type says. -/
theorem isWellSpelled (h : IsLexeme w k rest) (hk : k ≠ .illegal)
    (hfree : ∀ q : Keyword, k = .keyword q → q.isForbidden = false) (place : Location) :
    Token.isWellSpelled ⟨k, String.ofList w, place⟩ := by
  cases h with
  | newline => simp [Token.isWellSpelled]
  | symbol s => simp [Token.isWellSpelled]
  | keyword _ hw _ => simp [Token.isWellSpelled, hw, hfree _ rfl]
  | identifier hw hnone _ =>
    have hword : Keyword.ofWord? w = none := by
      cases hq : Keyword.ofWord? w with
      | none => rfl
      | some q => exact absurd (Keyword.ofWord?_eq_some_iff.1 hq).symm (hnone q)
    simp [Token.isWellSpelled, hw, hword]
  | number hne hw _ => simpa [Token.isWellSpelled, hne] using hw
  | illegal => exact absurd rfl hk

end IsLexeme

namespace Token
variable {t : Token} {rest : List Char}

/-- What is spelled as a token's type says is a lexeme, if a space or a line break follows. -/
theorem isLexeme_of_isWellSpelled (h : t.isWellSpelled)
    (hrest : t.kind ≠ .newline → ∀ c ∈ rest.head?, c = ' ' ∨ c = '\n') :
    IsLexeme t.lexeme.toList t.kind rest := by
  have hstop {p : Char → Bool} (hp : p ' ' = false ∧ p '\n' = false) (hne : t.kind ≠ .newline) :
      ∀ c ∈ rest.head?, p c = false := by
    intro c hc
    rcases hrest hne c hc with rfl | rfl
    · exact hp.1
    · exact hp.2
  unfold isWellSpelled at h
  dsimp only at h
  split at h <;> rename_i hk <;> rw [hk] at hstop ⊢
  · simp only [decide_eq_true_eq] at h
    rw [h]
    exact .newline
  · simp only [decide_eq_true_eq] at h
    rw [h]
    exact .symbol _
  · simp only [Bool.and_eq_true, decide_eq_true_eq] at h
    exact .keyword (isWord_of_spelling h.1) h.1.symm (hstop (by decide) (by simp))
  · simp only [Bool.and_eq_true, Option.isNone_iff_eq_none] at h
    refine .identifier h.1 (fun k hw => ?_) (hstop (by decide) (by simp))
    rw [Keyword.ofWord?_eq_some_iff.2 hw.symm] at h
    cases h.2
  · simp only [Bool.and_eq_true, List.all_eq_true] at h
    exact .number (by simpa using h.1) h.2 (hstop (by decide) (by simp))
  · cases h
  · cases h

theorem ne_of_isWellSpelled (h : t.isWellSpelled) :
    t.kind ≠ .endOfInput ∧ t.kind ≠ .illegal := by
  unfold isWellSpelled at h
  constructor <;>
  · intro hk
    rw [hk] at h
    cases h

theorem isForbidden_of_isWellSpelled (h : t.isWellSpelled) {k : Keyword}
    (hk : t.kind = .keyword k) : k.isForbidden = false := by
  unfold isWellSpelled at h
  rw [hk] at h
  simp only [Bool.and_eq_true, Bool.not_eq_true'] at h
  exact h.2

theorem kind_eq_newline (h : t.isWellSpelled) (ht : t.lexeme = "\n") : t.kind = .newline := by
  unfold isWellSpelled at h
  rw [ht] at h
  cases hk : t.kind with
  | newline => rfl
  | keyword k =>
    rw [hk] at h
    cases k <;> exact absurd h (by decide)
  | symbol s =>
    rw [hk] at h
    cases s <;> exact absurd h (by decide)
  | _ =>
    rw [hk] at h
    exact absurd h (by decide)

end Token

/-! ## Written texts -/

theorem isGap_replicate (n : Nat) (rest : List Char) : IsGap (List.replicate n ' ') rest := by
  refine .blanks fun c hc => ?_
  rw [(List.mem_replicate.1 hc).2]
  rfl

namespace Scanner
variable {s s' : Scanner} {t : Token} {n : Nat} {rest : List Char}

/-- Behind spaces a lexeme is read as the token that it was written for. -/
theorem scan_of_isWellSpelled (h : t.isWellSpelled)
    (hrest : t.kind ≠ .newline → ∀ c ∈ rest.head?, c = ' ' ∨ c = '\n')
    (hs : s.rest = List.replicate n ' ' ++ (t.lexeme.toList ++ rest)) :
    ∃ u s', s.scan = .ok u s' ∧ u.unplaced = t.unplaced ∧ s'.rest = rest := by
  have hlexeme := Token.isLexeme_of_isWellSpelled h hrest
  have hstart : StartsLexeme (t.lexeme.toList ++ rest) := by
    refine hlexeme.startsLexeme (Token.ne_of_isWellSpelled h).2 fun hk hslash => ?_
    rcases hrest hk '/' hslash with hc | hc <;> cases hc
  obtain ⟨s', place, hs', -, -, -, -, hscan, -⟩ :=
    scan_of_isLexeme (isGap_replicate n _) hstart hlexeme hs
  refine ⟨_, s', hscan fun q hq => Token.isForbidden_of_isWellSpelled h hq, ?_, hs'⟩
  rw [String.ofList_toList]
  rfl

/-- At the end of the text, behind spaces, there is the end of input. -/
theorem scan_of_spaces (hs : s.rest = List.replicate n ' ') :
    ∃ u s', s.scan = .ok u s' ∧ u.kind = .endOfInput := by
  obtain ⟨s', place, -, hscan⟩ := scan_of_isGap (isGap_replicate n []) hs
  exact ⟨_, s', hscan, rfl⟩

/-- What is read as a token is spelled as its type says. -/
theorem isWellSpelled_of_scan (h : s.scan = .ok t s') (hend : t.kind ≠ .endOfInput)
    (hk : t.kind ≠ .illegal) : t.isWellSpelled := by
  unfold scan at h
  dsimp only at h
  split at h
  · cases h
    exact absurd rfl hend
  · rename_i c cs _
    split at h
    · rename_i htoken
      cases h
      obtain ⟨rfl, hfree⟩ := tokenOf_eq_ok htoken
      exact (IsLexeme.first c cs).isWellSpelled hk hfree _
    · cases h

end Scanner

namespace Lexer
variable {l l' : Lexer} {s : Scanner} {t : Token} {ts : List Token}

/-- The lexer gives these tokens, but for their places, and then the end of input. -/
def ReadsBack (l : Lexer) (ts : List Token) : Prop :=
  ∃ us e l', l.drain = .ok (us ++ [e]) l' ∧ us.map Token.unplaced = ts.map Token.unplaced

theorem readsBack_nil {n : Nat} (hp : l.peeked = none)
    (hl : l.scanner.rest = List.replicate n ' ') : l.ReadsBack [] := by
  obtain ⟨e, s, hscan, hend⟩ := Scanner.scan_of_spaces hl
  exact ⟨[], e, _, drain_of_endOfInput (next_of_scan hp hscan) hend, rfl⟩

theorem readsBack_cons {n : Nat} {cs : List Char} (ht : t.isWellSpelled) (hp : l.peeked = none)
    (hl : l.scanner.rest = List.replicate n ' ' ++ (t.lexeme.toList ++ cs))
    (hcs : t.kind ≠ .newline → ∀ c ∈ cs.head?, c = ' ' ∨ c = '\n')
    (ih : ∀ k : Lexer, k.peeked = none → k.scanner.rest = cs → k.ReadsBack ts) :
    l.ReadsBack (t :: ts) := by
  obtain ⟨u, s, hscan, hu, hs⟩ := Scanner.scan_of_isWellSpelled ht hcs hl
  obtain ⟨us, e, l', hdrain, hmap⟩ := ih { l with scanner := s } hp hs
  have hend : u.kind ≠ .endOfInput := by
    rw [Token.kind_eq_of_unplaced hu]
    exact (Token.ne_of_isWellSpelled ht).1
  refine ⟨u :: us, e, l', drain_of_next (next_of_scan hp hscan) hend hdrain, ?_⟩
  rw [List.map_cons, List.map_cons, hu, hmap]

/-- The tokens of a text that is written with spaces are those that it was written for. -/
theorem readsBack_of_spaced {ws : List String} {cs : List Char} (h : Spaced ws cs) :
    ∀ (ts : List Token) (n : Nat) (l : Lexer), ws = ts.map Token.lexeme →
      (∀ t ∈ ts, t.isWellSpelled) → l.peeked = none →
      l.scanner.rest = List.replicate n ' ' ++ cs → l.ReadsBack ts := by
  induction h with
  | nil =>
    intro ts n l hts _ hp hl
    obtain rfl := List.map_eq_nil_iff.1 hts.symm
    exact readsBack_nil hp (hl.trans (List.append_nil _))
  | space _ ih =>
    intro ts n l hts hall hp hl
    refine ih ts (n + 1) l hts hall hp ?_
    rw [hl, List.replicate_succ', List.append_assoc]
    rfl
  | newline _ ih =>
    intro ts n l hts hall hp hl
    obtain ⟨t, us, rfl, ht, hus⟩ := List.map_eq_cons_iff.1 hts.symm
    obtain ⟨hspelled, hall⟩ := List.forall_mem_cons.1 hall
    refine readsBack_cons hspelled hp (n := n) (by rw [hl, ht]; rfl) ?_ fun k hk hrest =>
      ih us 0 k hus.symm hall hk hrest
    exact fun hne => absurd (Token.kind_eq_newline hspelled ht) hne
  | word _ hcs ih =>
    intro ts n l hts hall hp hl
    obtain ⟨t, us, rfl, rfl, hus⟩ := List.map_eq_cons_iff.1 hts.symm
    obtain ⟨hspelled, hall⟩ := List.forall_mem_cons.1 hall
    exact readsBack_cons hspelled hp hl (fun _ => hcs) fun k hk hrest =>
      ih us 0 k hus.symm hall hk hrest

end Lexer

/-- A text of a program is parsed as this program, up to the places of the tokens, and without
errors. -/
theorem parse_of_isTextOf {bs : List Block} {text : String} (h : IsTextOf text bs)
    (filename : String) :
    ∃ cs, parse text filename = .ok (cs, []) ∧
      cs.map (Block.mapTokens Token.unplaced) = bs.map (Block.mapTokens Token.unplaced) := by
  obtain ⟨ts, hspell, hall, hspaced⟩ := h
  obtain ⟨us, e, l, hdrain, hmap⟩ :=
    Lexer.readsBack_of_spaced hspaced ts 0 (.start text filename) rfl hall rfl rfl
  have htokens : tokenize text filename = .ok (us ++ [e]) := by
    rw [tokenize, hdrain]
  obtain ⟨cs, hcs, hblocks⟩ := hspell.exists_of_unplaced us hmap
  exact ⟨cs, parse_of_allSpelledBy htokens hcs, hblocks⟩

/-- Every well-formed program can be written, and however it is written, parsing the text gives it
back, up to the places of the tokens, and no errors. -/
theorem parse_undoes_print (bs : List Block) (hbs : ∀ b ∈ bs, b.isWellFormed) (filename : String) :
    (∃ text, IsTextOf text bs) ∧ ∀ text, IsTextOf text bs →
      ∃ cs, parse text filename = .ok (cs, []) ∧
        cs.map (Block.mapTokens Token.unplaced) = bs.map (Block.mapTokens Token.unplaced) :=
  ⟨exists_text hbs, fun _ h => parse_of_isTextOf h filename⟩

theorem parse_undoes_print_negation :
    let a : Expr := .identifier ⟨.identifier, "a", default⟩
    let one : Expr := .number ⟨.number, "1", default⟩
    let sum : Expr := .infixOp ⟨.symbol .plus, "+", default⟩ "+" a one
    let value : Expr := .prefixOp ⟨.keyword .not, "Not", default⟩ "Not" sum
    let bs : List Block := [{
      keyword := ⟨.keyword .vars, "Variables", default⟩
      declarations := [{
        name := ⟨.identifier, "x", default⟩
        typeName := some ⟨.keyword .logico, "LOGICO", default⟩
        value := some value }] }]
    ∃ text cs, IsTextOf text bs ∧ parse text = .ok (cs, []) ∧
      cs.map (Block.mapTokens Token.unplaced) = bs.map (Block.mapTokens Token.unplaced) := by
  intro a one sum value bs
  obtain ⟨⟨text, htext⟩, hparse⟩ := parse_undoes_print bs (by decide +kernel) Location.fromString
  obtain ⟨cs, hcs, hmap⟩ := hparse text htext
  exact ⟨text, cs, htext, hcs, hmap⟩

end SLFront
