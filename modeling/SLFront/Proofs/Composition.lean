import SLFront.Proofs.Places
import SLFront.Proofs.SideBySide

/-!
# Programs line by line

A line feed ends every gap and every lexeme but itself. So the parts of two texts with a line feed
between them are the parts of the one and those of the other (`IsDecomposition.append_newline`), and
the tokens of the second text are where they were, but further below (`tokenize_append_newline`,
`tokenize_line_by_line`).

If in addition the second text starts with a statement, the parser comes to it in the state in which
it ends on the first text alone, unless it has found an error at the end of that text: nothing that
it has read before makes a difference (`parse_append_newline`).
-/
namespace SLFront

/-! ## Parts of two texts -/

section
variable {cs bs g g' w rest : List Char} {k : Token.Kind} {ps qs : List Piece}

/-- What a line feed satisfies holds of the character that follows a text, if it held before the
line feed was put there. -/
theorem forall_head?_append_newline {P : Char → Prop} (h : ∀ c ∈ rest.head?, P c)
    (hn : P '\n') : ∀ c ∈ (rest ++ '\n' :: bs).head?, P c := by
  cases rest with
  | nil =>
    intro c hc
    obtain rfl : '\n' = c := by simpa using hc
    exact hn
  | cons => exact h

theorem IsGap.append_newline (h : IsGap g rest) (bs : List Char) :
    IsGap g (rest ++ '\n' :: bs) := by
  cases h with
  | blanks hbs => exact .blanks hbs
  | comment hbs hcs hrest => exact .comment hbs hcs (forall_head?_append_newline hrest rfl)

theorem StartsLexeme.append_newline (h : StartsLexeme rest) (bs : List Char) :
    StartsLexeme (rest ++ '\n' :: bs) where
  blank := forall_head?_append_newline h.blank rfl
  comment := by
    rintro ⟨cs, hcs⟩
    match rest, h, hcs with
    | [], _, hcs => cases hcs
    | [_], _, hcs => cases hcs
    | c :: d :: rest, h, hcs =>
      refine h.comment ⟨rest, ?_⟩
      cases hcs
      rfl

theorem IsLexeme.append_newline (h : IsLexeme w k rest) (bs : List Char) :
    IsLexeme w k (rest ++ '\n' :: bs) := by
  cases h with
  | newline => exact .newline
  | symbol s => exact .symbol s
  | keyword hw hk hrest => exact .keyword hw hk (forall_head?_append_newline hrest rfl)
  | identifier hw hk hrest => exact .identifier hw hk (forall_head?_append_newline hrest rfl)
  | number hne hw hrest => exact .number hne hw (forall_head?_append_newline hrest rfl)
  | illegal hnewline hsymbol hword hdigit => exact .illegal hnewline hsymbol hword hdigit

/-- Two texts with a line feed between them are taken apart where they were alone. -/
theorem IsDecomposition.append_newline (h : IsDecomposition cs ps g)
    (h' : IsDecomposition bs qs g') :
    IsDecomposition (cs ++ '\n' :: bs) (ps ++ ⟨g, .newline, ['\n']⟩ :: qs) g' := by
  induction h with
  | @last g hg =>
    have hgap : IsGap g ('\n' :: bs) := hg.append_newline bs
    exact .piece (w := ['\n']) hgap (startsLexeme_nil.append_newline bs) .newline h'
  | @piece g w rest lastGap k ps hg hstart hw _ ih =>
    have hgap := hg.append_newline bs
    have hstart' := hstart.append_newline bs
    rw [List.append_assoc] at hgap hstart'
    rw [List.append_assoc, List.append_assoc]
    exact .piece hgap hstart' (hw.append_newline bs) ih

end

/-! ## Places further below -/

/-- The place in a text that stands below another one. -/
def Location.below (above : List Char) (l : Location) : Location :=
  { l with
    line := l.line + (above.count '\n' + 1 : Nat)
    offset := l.offset + (above.length + 1 : Nat) }

/-- The token in a text that stands below another one. -/
def Token.below (above : List Char) (t : Token) : Token :=
  { t with location := t.location.below above }

/-- The error in a text that stands below another one. -/
def LexicalError.below (above : List Char) (e : LexicalError) : LexicalError :=
  { e with diagnostic := { e.diagnostic with location := e.location.below above } }

section
variable {above before cs : List Char} {ps qs : List Piece} {filename : String}

theorem lastLine_append_newline : lastLine (above ++ '\n' :: before) = lastLine before := by
  induction before using List.reverseRecOn with
  | nil => exact lastLine_concat_newline
  | append_singleton before c ih =>
    rw [← List.cons_append, ← List.append_assoc]
    by_cases hc : c = '\n'
    · rw [hc, lastLine_concat_newline, lastLine_concat_newline]
    · have hcs : '\n' ∉ [c] := by simpa using Ne.symm hc
      rw [lastLine_append hcs, lastLine_append hcs, ih]

theorem Location.behind_append_newline :
    behind filename (above ++ '\n' :: before) = (behind filename before).below above := by
  simp only [behind, below, lastLine_append_newline, Location.mk.injEq, true_and]
  simp
  omega

theorem Scanner.tokenOf_below (lexeme : Lexeme) (place : Location) :
    tokenOf lexeme (place.below above) =
      ((tokenOf lexeme place).mapError (LexicalError.below above)).map (Token.below above) := by
  unfold tokenOf
  dsimp only
  split
  · split <;> rfl
  · rfl

/-- The tokens of a text that stands below another one are its own, further below. -/
theorem Piece.tokens_below (before lastGap : List Char) :
    tokens filename lastGap (above ++ '\n' :: before) ps =
      ((tokens filename lastGap before ps).mapError (LexicalError.below above)).map
        (List.map (Token.below above)) := by
  induction ps generalizing before with
  | nil =>
    rw [tokens, tokens, List.append_assoc, List.cons_append, Location.behind_append_newline]
    rfl
  | cons p ps ih =>
    rw [tokens, tokens, List.append_assoc, List.cons_append, Location.behind_append_newline,
      Scanner.tokenOf_below, List.append_assoc, List.cons_append, ih]
    cases Scanner.tokenOf ⟨p.kind, p.chars, []⟩ (.behind filename (before ++ p.gap)) with
    | error e => rfl
    | ok t =>
      cases tokens filename lastGap (before ++ (p.gap ++ p.chars)) ps <;> rfl

/-- The tokens of the pieces end with the end of input, behind all of them. -/
theorem IsDecomposition.exists_endOfInput {lastGap : List Char} {ts : List Token}
    (h : IsDecomposition cs ps lastGap) (hts : Piece.tokens filename lastGap before ps = .ok ts) :
    ∃ us, ts = us ++ [⟨.endOfInput, "", .behind filename (before ++ cs)⟩] := by
  induction h generalizing before ts with
  | last =>
    cases hts
    exact ⟨[], rfl⟩
  | @piece g w rest lastGap k ps _ _ _ _ ih =>
    rw [Piece.tokens] at hts
    cases htoken : Scanner.tokenOf ⟨k, w, []⟩ (.behind filename (before ++ g)) with
    | error e =>
      rw [htoken] at hts
      cases hts
    | ok t =>
      cases htokens : Piece.tokens filename lastGap (before ++ (g ++ w)) ps with
      | error e =>
        rw [htoken, htokens] at hts
        cases hts
      | ok us =>
        rw [htoken, htokens] at hts
        cases hts
        obtain ⟨vs, rfl⟩ := ih htokens
        exact ⟨t :: vs, by simp⟩

/-- The tokens of two texts with a line feed between them. -/
theorem IsDecomposition.tokens_append_newline {lastGap lastGap' : List Char}
    (h : IsDecomposition cs ps lastGap) :
    Piece.tokens filename lastGap' before (ps ++ ⟨lastGap, .newline, ['\n']⟩ :: qs) = (do
      let ts ← Piece.tokens filename lastGap before ps
      let us ← Piece.tokens filename lastGap' (before ++ (cs ++ ['\n'])) qs
      return ts.dropLast ++ ⟨.newline, "\n", .behind filename (before ++ cs)⟩ :: us) := by
  induction h generalizing before with
  | last =>
    rw [List.nil_append, Piece.tokens, Piece.tokens]
    rfl
  | @piece g w rest lastGap k ps _ _ _ h ih =>
    rw [List.cons_append, Piece.tokens, Piece.tokens, ih]
    cases Scanner.tokenOf ⟨k, w, []⟩ (.behind filename (before ++ g)) with
    | error e => rfl
    | ok t =>
      simp only [List.append_assoc]
      cases htokens : Piece.tokens filename lastGap (before ++ (g ++ w)) ps with
      | error e => rfl
      | ok ts =>
        obtain ⟨x, xs, rfl⟩ : ∃ x xs, ts = x :: xs := by
          obtain ⟨us, rfl⟩ := h.exists_endOfInput htokens
          cases us <;> simp
        cases Piece.tokens filename lastGap' (before ++ (g ++ (w ++ (rest ++ ['\n'])))) qs <;> rfl

end

/-- The tokens of two texts with a line feed between them are those of the first one without its
end, the line feed, and those of the second one, further below. The first forbidden word of either
is the error. -/
theorem tokenize_append_newline (a b filename : String) :
    tokenize (a ++ "\n" ++ b) filename = (do
      let ts ← tokenize a filename
      let us ← (tokenize b filename).mapError (LexicalError.below a.toList)
      return ts.dropLast ++ ⟨.newline, "\n", .behind filename a.toList⟩ ::
        us.map (Token.below a.toList)) := by
  obtain ⟨ps, g, hps⟩ := exists_decomposition a.toList
  obtain ⟨qs, g', hqs⟩ := exists_decomposition b.toList
  have hsource : (a ++ "\n" ++ b).toList = a.toList ++ '\n' :: b.toList := by
    simp
  have hall := hps.append_newline hqs
  rw [← hsource] at hall
  rw [tokenize_eq_tokens hall, tokenize_eq_tokens hps, tokenize_eq_tokens hqs,
    hps.tokens_append_newline, List.nil_append, List.nil_append]
  rw [Piece.tokens_below [] g']
  cases Piece.tokens filename g [] ps with
  | error e => rfl
  | ok ts => cases Piece.tokens filename g' [] qs <;> rfl

/-- The last token of a source text is the end of input, behind the whole text. -/
theorem exists_endOfInput_behind {source filename : String} {ts : List Token}
    (h : tokenize source filename = .ok ts) :
    ∃ us, ts = us ++ [⟨.endOfInput, "", .behind filename source.toList⟩] := by
  obtain ⟨ps, g, hps⟩ := exists_decomposition source.toList
  rw [tokenize_eq_tokens hps] at h
  obtain ⟨us, hus⟩ := hps.exists_endOfInput h
  exact ⟨us, hus⟩

/-- Reading tokens goes line by line: what two texts with a line feed between them give is what the
first one gives, a line break in the place of its end of input, and what the second one gives, so
many lines and characters further below. If there is an error in the first text, it is the error of
the whole, and otherwise an error in the second text is, further below. -/
theorem tokenize_line_by_line (a b filename : String) :
    match tokenize a filename, tokenize b filename with
    | .error e, _ => tokenize (a ++ "\n" ++ b) filename = .error e
    | .ok _, .error e => tokenize (a ++ "\n" ++ b) filename = .error (e.below a.toList)
    | .ok ts, .ok us => ∃ vs last, ts = vs ++ [last] ∧ last.kind = .endOfInput ∧
        tokenize (a ++ "\n" ++ b) filename =
          .ok (vs ++ ⟨.newline, "\n", last.location⟩ :: us.map (Token.below a.toList)) := by
  rw [tokenize_append_newline]
  cases ha : tokenize a filename with
  | error e => rfl
  | ok ts =>
    cases tokenize b filename with
    | error e => rfl
    | ok us =>
      obtain ⟨vs, rfl⟩ := exists_endOfInput_behind ha
      refine ⟨vs, _, rfl, rfl, ?_⟩
      show Except.ok ((vs ++ [_]).dropLast ++ _) = _
      rw [List.dropLast_concat]

/-! ## Programs of two texts -/

namespace Comparison
variable {C : Comparison} {k : Token} {bs rest ts : List Token} {c : Cursor} {s s' : Parser}

/-- A list is beside itself with something in the place of its end. -/
theorem beside_goesOn (hts : c.Upcoming ts) (halike : ∀ t, t.kind ≠ .endOfInput → C.alike t t)
    (hgo : C.beyond = some (k :: rest)) (hk : k.kind.isBoundary)
    (hbs : ∀ b ∈ bs, b.kind = .newline) : C.Beside ts (ts.dropLast ++ (bs ++ k :: rest)) := by
  induction hts with
  | last hc _ _ => exact .goesOn hgo hc hbs hk
  | @cons c d ts hc _ hrest ih =>
    obtain ⟨us, hus⟩ := hrest.exists_cons
    rw [List.dropLast_cons_of_ne_nil (by simp [hus]), List.cons_append]
    exact .cons (halike _ hc) ih

/-- At the end of the first text the second parser is in front of what the second text goes on
with. -/
theorem Even.exists_beyond (h : C.Even s s') (he : s.current.kind = .endOfInput)
    (halike : ∀ t t', C.alike t t' → t.kind ≠ .endOfInput) :
    ∃ bs k rest, C.beyond = some (k :: rest) ∧ (∀ b ∈ bs, b.kind = .newline) ∧
      s'.cursor.Upcoming (bs ++ k :: rest) := by
  obtain ⟨ts, ts', hts, hts', hbeside⟩ := h.upcoming
  obtain ⟨us, rfl⟩ := hts.exists_cons
  have hnone : ∀ t', ¬C.alike s.current t' := fun t' hsame => halike _ t' hsame he
  cases hbeside with
  | goesOn hgo _ hbs _ => exact ⟨_, _, _, hgo, hbs, hts'⟩
  | ended hsame _ => exact absurd hsame (hnone _)
  | token hsame _ _ => exact absurd hsame (hnone _)
  | breaks hsame _ _ _ => exact absurd hsame (hnone _)

end Comparison

theorem dropWhile_isLineBreak {bs rest : List Token} {k : Token} (hbs : ∀ b ∈ bs, b.kind = .newline)
    (hk : k.kind ≠ .newline) : (bs ++ k :: rest).dropWhile Token.isLineBreak = k :: rest := by
  rw [List.dropWhile_append_of_pos (p := Token.isLineBreak) fun b hb => decide_eq_true (hbs b hb)]
  exact List.dropWhile_cons_of_neg (by simp [Token.isLineBreak, hk])

/-- A list of tokens starts with line breaks and something else. -/
theorem Cursor.Upcoming.exists_breaks {c : Cursor} {ts : List Token} (h : c.Upcoming ts) :
    ∃ bs k rest, ts = bs ++ k :: rest ∧ (∀ b ∈ bs, b.kind = .newline) ∧ k.kind ≠ .newline := by
  induction h with
  | last he _ _ => exact ⟨[], _, [], rfl, by simp, by simp [he]⟩
  | @cons c d ts _ _ _ ih =>
    by_cases hn : c.current.kind = .newline
    · obtain ⟨bs, k, rest, rfl, hbs, hk⟩ := ih
      exact ⟨c.current :: bs, k, rest, rfl, by simpa [hn] using hbs, hk⟩
    · exact ⟨[], _, ts, rfl, by simp, hn⟩

/-- The parser comes to what stands in the place of the end of a text as it comes to the end, with
the same records. -/
theorem Parser.exists_allStatements_beyond {s s' t : Parser} {ts bs rest : List Token} {k : Token}
    {xs : List Block} {es : List SyntaxError} (hs : s.cursor.Upcoming ts)
    (hs' : s'.cursor.Upcoming (ts.dropLast ++ (bs ++ k :: rest))) (hk : k.kind.isBoundary)
    (hbs : ∀ b ∈ bs, b.kind = .newline) (ht : allStatements s = .ok () t)
    (hend : ∀ e ∈ t.errors, e.token.kind ≠ .endOfInput)
    (hstatements : t.statements = s.statements ++ xs) (herrors : t.errors = s.errors ++ es) :
    ∃ u, allStatements s' = allStatements u ∧ u.statements = s'.statements ++ xs ∧
      u.errors = s'.errors ++ es ∧ u.cursor.Upcoming (k :: rest) := by
  let C : Comparison :=
    { alike := fun t t' => t = t' ∧ t.kind ≠ .endOfInput
      kind_eq := fun h => congrArg Token.kind h.1.symm
      beyond := some (k :: rest)
      first := s
      second := s' }
  have heven : C.Even s s' := ⟨C.recorded_start, ts, _, hs, hs',
    Comparison.beside_goesOn hs (fun _ ht => ⟨rfl, ht⟩) rfl hk hbs⟩
  obtain ⟨u, hu, he, heven⟩ := heven.allStatements ht fun _ => hend
  obtain ⟨bs', _, _, hgo, hbs', hupcoming⟩ := heven.exists_beyond he fun _ _ h => h.2
  cases hgo
  obtain ⟨ys, ys', fs, fs', hys, hfs, hys', hfs', hblocks, hmap⟩ :=
    heven.map_eq (f := id) (g := id) (fun _ _ h => h.1) fun _ _ h => congrArg Token.lexeme h.1
  obtain rfl := List.append_cancel_left (hstatements.symm.trans hys)
  obtain rfl := List.append_cancel_left (herrors.symm.trans hfs)
  simp only [Block.map_mapTokens_id, SyntaxError.map_mapToken_id] at hblocks hmap
  obtain ⟨d, hskip, hd⟩ := exists_skip hupcoming
  rw [dropWhile_isLineBreak hbs' (Token.Kind.ne_newline_of_isBoundary hk)] at hd
  exact ⟨u.moved d, hu.trans hskip, by rw [statements_moved, hys', hblocks],
    by rw [errors_moved, hfs', hmap], hd⟩

/-- Two programs with a line feed between them, the second of which starts with a statement, have
the statements of the one and those of the other, and so their errors, where what comes of the
second one is further below. This holds whatever errors there are, unless one is at the end of the
first program. -/
theorem parse_append_newline {a b filename : String} {ts us : List Token}
    (ha : tokenize a filename = .ok ts) (hb : tokenize b filename = .ok us)
    (hfirst : ∀ t ∈ (us.dropWhile Token.isLineBreak).head?, t.kind.isBoundary) :
    ∃ bs es cs fs, parse a filename = .ok (bs, es) ∧ parse b filename = .ok (cs, fs) ∧
      ((∀ e ∈ es, e.token.kind ≠ .endOfInput) →
        parse (a ++ "\n" ++ b) filename =
          .ok (bs ++ cs.map (Block.mapTokens (Token.below a.toList)),
            es ++ fs.map (SyntaxError.mapToken (Token.below a.toList)))) := by
  have hall : tokenize (a ++ "\n" ++ b) filename = .ok (ts.dropLast ++
      ⟨.newline, "\n", .behind filename a.toList⟩ :: us.map (Token.below a.toList)) := by
    rw [tokenize_append_newline, ha, hb]
    rfl
  obtain ⟨s, t, -, hs, herrors, hstatements, ht, -, hparse⟩ := exists_run_of_tokenize ha
  obtain ⟨p, q, -, hp, herrors₂, hstatements₂, hq, -, hparse₂⟩ := exists_run_of_tokenize hb
  obtain ⟨s', t', -, hs', herrors', hstatements', ht', -, hparse'⟩ := exists_run_of_tokenize hall
  refine ⟨t.statements, t.errors, q.statements, q.errors, hparse, hparse₂, fun hend => ?_⟩
  -- The statement that the second program starts with.
  obtain ⟨breaks, k, rest, rfl, hbreaks, hn⟩ := hp.exists_breaks
  obtain ⟨d, hskip, hd⟩ := Parser.exists_skip hp
  rw [dropWhile_isLineBreak hbreaks hn] at hd hfirst
  have hk : k.kind.isBoundary := hfirst k rfl
  -- The parser comes to it as it comes to the end of the first program.
  rw [List.map_append, List.map_cons, ← List.cons_append] at hs'
  obtain ⟨u, hu, hustatements, huerrors, hupcoming⟩ :=
    Parser.exists_allStatements_beyond hs hs' hk (by simpa [Token.below] using hbreaks) ht hend
      (by rw [hstatements, List.nil_append]) (by rw [herrors, List.nil_append])
  -- From there it reads the second program.
  obtain ⟨w, hw, hwstatements, hwerrors⟩ := Parser.exists_allStatements_of_map
    (s := p.moved d) (f := Token.below a.toList) (fun _ => rfl) hd hupcoming (hskip ▸ hq)
    (by rw [Parser.statements_moved, hstatements₂, List.nil_append])
    (by rw [Parser.errors_moved, herrors₂, List.nil_append])
  obtain ⟨-, rfl⟩ := EStateM.Result.ok.inj (ht'.symm.trans (hu.trans hw))
  rw [hparse', hwstatements, hwerrors, hustatements, huerrors, hstatements', herrors',
    List.nil_append, List.nil_append]

theorem parse_append_newline_two_errors :
    let a := "var\n x = )\nvar\n y = 1 // one"
    let b := "\nvariables\n z = 2 3\n"
    ∃ bs es cs fs, parse a = .ok (bs, es) ∧ parse b = .ok (cs, fs) ∧
      es.map SyntaxError.kind = [.noPrefixFound] ∧
      fs.map SyntaxError.kind = [.unexpectedExpression] ∧
      parse (a ++ "\n" ++ b) =
        .ok (bs ++ cs.map (Block.mapTokens (Token.below a.toList)),
          es ++ fs.map (SyntaxError.mapToken (Token.below a.toList))) := by
  intro a b
  obtain ⟨ts, hts⟩ : ∃ ts, tokenize a = .ok ts := exists_tokens (by decide +kernel)
  obtain ⟨us, hus⟩ : ∃ us, tokenize b = .ok us := exists_tokens (by decide +kernel)
  have hhead : (tokenize b).toOption.map (fun us =>
      (us.dropWhile Token.isLineBreak).head?.all (fun t => t.kind.isBoundary)) = some true := by
    decide +kernel
  have herrors : (parse a).toOption.map (fun r => r.2.map SyntaxError.kind) =
        some [.noPrefixFound] ∧
      (parse b).toOption.map (fun r => r.2.map SyntaxError.kind) =
        some [.unexpectedExpression] := by
    decide +kernel
  have hend : (parse a).toOption.map
      (fun r => r.2.all (fun e => e.token.kind ≠ .endOfInput)) = some true := by
    decide +kernel
  rw [hus] at hhead
  have hfirst : ∀ t ∈ (us.dropWhile Token.isLineBreak).head?, t.kind.isBoundary := by
    simpa [Option.all_eq_true] using Option.some.inj hhead
  obtain ⟨bs, es, cs, fs, hparse, hparse', hcompose⟩ := parse_append_newline hts hus hfirst
  rw [hparse] at hend herrors
  rw [hparse'] at herrors
  refine ⟨bs, es, cs, fs, hparse, hparse', Option.some.inj herrors.1, Option.some.inj herrors.2,
    hcompose ?_⟩
  simpa using Option.some.inj hend

end SLFront
