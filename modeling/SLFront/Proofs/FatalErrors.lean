import SLFront.Proofs.Places
import SLFront.Proofs.ProgramReading

/-!
# Fatal errors come through

A forbidden word ends the reading of a source text, whoever reads. A cursor in front of one can be
moved up to it and no further, and meets no end of input on the way (`Cursor.Blocked`). As a program
ends only at the end of input, and is interrupted only where a token is refused, the parser comes
upon the word whatever syntax errors it records and recovers from before. So parsing ends with a
fatal error if and only if reading the tokens does, and with the same one; otherwise it reads all
tokens of the source text (`parse_fatal_or_complete`).
-/
namespace SLFront

/-! ## In front of a forbidden word -/

/-- A fatal error is met at once, or behind tokens other than the end of input. -/
theorem Lexer.drain_eq_error {l l' : Lexer} {e : LexicalError} (h : l.drain = .error e l') :
    l.next = .error e l' ∨
      ∃ t l₁, l.next = .ok t l₁ ∧ t.kind ≠ .endOfInput ∧ l₁.drain = .error e l' := by
  rw [drain] at h
  split at h
  · rename_i hl
    cases h
    exact .inl hl
  · rename_i t l₁ hl
    split at h
    · cases h
    · rename_i ht
      split at h
      · cases h
      · rename_i he
        cases h
        exact .inr ⟨t, l₁, hl, ht, he⟩

namespace Cursor
variable {c d : Cursor} {us : List Token} {e : LexicalError}

/-- Tokens other than the end of input lie ahead of the cursor, and then the fatal error. -/
inductive Blocked (e : LexicalError) : Cursor → Prop
  | here {c : Cursor} {l : Lexer} (hn : c.next.kind ≠ .endOfInput)
    (hl : c.lexer.next = .error e l) : Blocked e c
  | step {c d : Cursor} (hn : c.next.kind ≠ .endOfInput) (hs : c.step? = some d)
    (rest : Blocked e d) : Blocked e c

/-- What can be read in front of a fatal error leads nowhere else. -/
theorem Blocked.of_reads (h : c.Blocked e) (hd : c.Reads us d) :
    d.Blocked e ∧ ∀ x ∈ us, x.kind ≠ .endOfInput := by
  induction hd with
  | refl c => exact ⟨h, by simp⟩
  | step hs _ ih =>
    cases h with
    | here _ hl => simp [step?, hl] at hs
    | step hn hs' rest =>
      obtain rfl := Option.some.inj (hs'.symm.trans hs)
      obtain ⟨hd, hus⟩ := ih rest
      exact ⟨hd, List.forall_mem_cons.2 ⟨hn, hus⟩⟩

theorem blocked_of_drain {l l' : Lexer} {x t : Token} (ht : t.kind ≠ .endOfInput)
    (h : l.drain = .error e l') : Blocked e ⟨l, x, t⟩ := by
  induction hn : l.remaining using Nat.strongRecOn generalizing l x t with
  | _ n ih =>
    subst hn
    obtain hl | ⟨u, l₁, hl, hu, h⟩ := Lexer.drain_eq_error h
    · exact .here ht hl
    · have hremaining := Lexer.remaining_of_next_eq_ok hl
      rw [Token.weight_eq_one hu] at hremaining
      exact .step ht (step?_of_next hl) (ih _ (by omega) hu h rfl)

end Cursor

namespace Parser
variable {s t : Parser} {e e' : LexicalError}

/-- In front of a fatal error nothing else interrupts the parser. -/
theorem eq_of_advance_of_blocked (hs : s.cursor.Blocked e) (h : s.advance = .error e' t) :
    e' = e := by
  cases hs with
  | here _ hl =>
    have hl' : s.lexer.next = .error e _ := hl
    unfold advance at h
    rw [hl'] at h
    cases h
    rfl
  | step _ hs _ => cases (advance_of_step hs).symm.trans h

/-- A program in front of a fatal error comes upon it. -/
theorem program_of_blocked (hs : s.cursor.Blocked e) (hc : s.current.kind ≠ .endOfInput) :
    ∃ t, s.program = .error e t := by
  have hwalk := walks_allStatements s
  cases h : s.allStatements with
  | error e' t =>
    rw [h] at hwalk
    obtain ⟨us, u, hu, he⟩ := hwalk
    obtain rfl := eq_of_advance_of_blocked (hs.of_reads hu).1 he
    exact ⟨t, bind_of_error h⟩
  | ok a t =>
    -- It would have read up to the end of input.
    obtain ⟨bs, hbs⟩ := yieldsBlocks_of_eq_ok h
    obtain ⟨us, es, hus, -, -, hend, -⟩ := hbs.reads
    have hne : ∀ x ∈ s.current :: us, x.kind ≠ .endOfInput :=
      List.forall_mem_cons.2 ⟨hc, (hs.of_reads hus).2⟩
    refine absurd hend (hne _ ?_)
    rw [← current_cursor t, hus.current_eq]
    exact List.getLast_mem _

end Parser

/-! ## Source texts -/

section
variable {source filename : String} {ts : List Token} {e : LexicalError}

/-- A fatal error of the tokens is one of the parser. -/
theorem parse_of_tokenize_error (h : tokenize source filename = .error e) :
    parse source filename = .error e := by
  have hdrain : ∃ l', (Lexer.start source filename).drain = .error e l' := by
    unfold tokenize at h
    split at h
    · cases h
    · rename_i l' he
      cases h
      exact ⟨l', he⟩
  obtain ⟨l', hdrain⟩ := hdrain
  rw [parse_eq]
  obtain hl | ⟨t, l₁, hl, ht, hdrain⟩ := Lexer.drain_eq_error hdrain
  · exact Lexer.parse_of_start_error (Parser.start_eq_error_iff.2 (.inl hl))
  obtain hl₁ | ⟨u, l₂, hl₁, hu, hdrain⟩ := Lexer.drain_eq_error hdrain
  · exact Lexer.parse_of_start_error (Parser.start_eq_error_iff.2 (.inr ⟨t, l₁, hl, hl₁⟩))
  · have hblocked : Cursor.Blocked e ⟨l₂, t, u⟩ := Cursor.blocked_of_drain hu hdrain
    obtain ⟨q, hq⟩ := Parser.program_of_blocked
      (s := { lexer := l₂, current := t, next := u }) hblocked ht
    exact Lexer.parse_of_program_error (Parser.start_eq hl hl₁) hq

/-- Where the source text has tokens, the parser makes all of them the current one in their order,
the end of input at the last, and ends. -/
theorem exists_program_of_tokenize (h : tokenize source filename = .ok ts) :
    ∃ s l v t us n, Parser.start (.start source filename) = .ok s l ∧ s.program = .ok v t ∧
      s.cursor.Reads us t.cursor ∧ s.current :: us = ts ++ List.replicate n t.current ∧
      t.current.kind = .endOfInput ∧ parse source filename = .ok (t.statements, t.errors) := by
  obtain ⟨s, l, hstart, hupcoming, -⟩ := start_of_tokenize h
  obtain ⟨_, t, ht⟩ := (Parser.walks_allStatements s).exists_ok hupcoming.clean
  obtain ⟨bs, hbs⟩ := Parser.yieldsBlocks_of_eq_ok ht
  obtain ⟨us, es, hus, -, -, hend, -⟩ := hbs.reads
  obtain ⟨n, hn⟩ := hupcoming.append_replicate hus hend
  have hprogram : s.program = .ok t.hasErrors
      { t with notices := t.notices ++ [.finished t.statements.length t.errors.length] } :=
    Parser.bind_of_ok ht
  have hparse := Lexer.parse_of_allStatements hstart ht
  exact ⟨s, l, _, _, us, n, hstart, hprogram, hus, hn, hend, (parse_eq _ _).trans hparse⟩

/-- The fatal error of a source text is its first forbidden word, at the place where it starts. -/
theorem tokenize_of_find?_eq_some {ps : List Piece} {lastGap : List Char} {o : Occurrence}
    (h : IsDecomposition source.toList ps lastGap)
    (ho : (Piece.occurrences 0 ps).find? Occurrence.isForbidden = some o) :
    tokenize source filename = .error (.forbidden (String.ofList o.chars)
      (.behind filename (source.toList.take o.offset.toNat))) := by
  have hdrain := Lexer.drain_of_isDecomposition h (l := .start source filename) rfl rfl
  dsimp only [Lexer.start, Scanner.start] at hdrain
  rw [ho] at hdrain
  obtain ⟨place, l', he, hoffset, -⟩ := hdrain
  obtain ⟨g, w, rest, hrest, hplace⟩ := Lexer.place_of_drain_error (l := .start source filename) rfl
    (Scanner.standsBehind_start source filename) he
  have hsource : source.toList = g ++ (w ++ rest) := hrest
  have hlocation : place = .behind filename g := congrArg LexicalError.location hplace
  have htake : source.toList.take o.offset.toNat = g := by
    rw [← hoffset, hlocation, hsource]
    exact List.take_left
  have he' : (Lexer.start source filename).drain = _ := he
  unfold tokenize
  rw [he', htake, ← hlocation]

theorem exists_tokens_of_find?_eq_none (filename : String) {ps : List Piece} {lastGap : List Char}
    (h : IsDecomposition source.toList ps lastGap)
    (hnone : (Piece.occurrences 0 ps).find? Occurrence.isForbidden = none) :
    ∃ ts, tokenize source filename = .ok ts := by
  have hdrain := Lexer.drain_of_isDecomposition h (l := .start source filename) rfl rfl
  dsimp only [Lexer.start, Scanner.start] at hdrain
  rw [hnone] at hdrain
  obtain ⟨ts, l', hok, -⟩ := hdrain
  have hok' : (Lexer.start source filename).drain = _ := hok
  unfold tokenize
  rw [hok']
  exact ⟨ts, rfl⟩

/-- A fatal error of the parser is one of the tokens. -/
theorem tokenize_of_parse_error (h : parse source filename = .error e) :
    tokenize source filename = .error e := by
  cases hts : tokenize source filename with
  | error e' =>
    cases (parse_of_tokenize_error hts).symm.trans h
    rfl
  | ok ts =>
    obtain ⟨_, _, _, _, _, _, -, -, -, -, -, hparse⟩ := exists_program_of_tokenize hts
    cases hparse.symm.trans h

/-- The text of a fatal error is made of letters. -/
theorem isAlpha_of_parse_error (h : parse source filename = .error e) :
    ∀ c ∈ e.lexeme.toList, c.isAlpha := by
  have htokens := tokenize_of_parse_error h
  obtain ⟨ps, lastGap, hps⟩ := exists_decomposition source.toList
  cases ho : (Piece.occurrences 0 ps).find? Occurrence.isForbidden with
  | none =>
    obtain ⟨ts, hts⟩ := exists_tokens_of_find?_eq_none filename hps ho
    cases htokens.symm.trans hts
  | some o =>
    cases htokens.symm.trans (tokenize_of_find?_eq_some hps ho)
    have hforbidden : o.isForbidden := List.find?_some ho
    obtain ⟨word, hword, hchars⟩ := List.any_eq_true.1 hforbidden
    have hlower : ["lib", "libext", "archivo"].all fun w => w.toList.all Char.isLower := by decide
    intro c hc
    rw [LexicalError.forbidden, String.toList_ofList] at hc
    exact isAlpha_of_map_toLower (List.all_eq_true.1 hlower word hword) (of_decide_eq_true hchars)
      c hc

/-- Parsing a source text ends with a fatal error if and only if reading its tokens does, and with
the same one: the first forbidden word, wherever the parser has come upon it. Otherwise the parser
ends normally, having read all tokens in their order, up to the end of input. -/
theorem parse_fatal_or_complete (source filename : String) :
    (∀ e, parse source filename = .error e ↔ tokenize source filename = .error e) ∧
      ∃ ps lastGap, IsDecomposition source.toList ps lastGap ∧
        match (Piece.occurrences 0 ps).find? Occurrence.isForbidden with
        | some o => ∃ e place, parse source filename = .error e ∧
            place = .behind filename (source.toList.take o.offset.toNat) ∧
            e = .forbidden (String.ofList o.chars) place ∧
            e.lexeme = String.ofList o.chars ∧ e.location = place
        | none => ∃ ts s l v t us n, tokenize source filename = .ok ts ∧
            Parser.start (.start source filename) = .ok s l ∧ s.program = .ok v t ∧
            s.cursor.Reads us t.cursor ∧ s.current :: us = ts ++ List.replicate n t.current ∧
            t.current.kind = .endOfInput ∧
            parse source filename = .ok (t.statements, t.errors) := by
  refine ⟨fun e => ⟨tokenize_of_parse_error, parse_of_tokenize_error⟩, ?_⟩
  obtain ⟨ps, lastGap, hps⟩ := exists_decomposition source.toList
  refine ⟨ps, lastGap, hps, ?_⟩
  split
  · rename_i o ho
    have htokens : tokenize source filename = _ := tokenize_of_find?_eq_some hps ho
    exact ⟨_, _, parse_of_tokenize_error htokens, rfl, rfl, rfl, rfl⟩
  · rename_i hnone
    obtain ⟨ts, hts⟩ := exists_tokens_of_find?_eq_none filename hps hnone
    obtain ⟨s, l, v, t, us, n, hrun⟩ := exists_program_of_tokenize hts
    exact ⟨ts, s, l, v, t, us, n, hts, hrun⟩

end
end SLFront
