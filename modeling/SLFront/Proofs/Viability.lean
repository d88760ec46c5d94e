import SLFront.Proofs.FirstError
import SLFront.Proofs.RoundTrip

/-!
# Viable tokens

Tokens are viable if some source text without errors starts with them (`Viable`). What is viable is
decided by the outlook. Tokens that have one are viable, since from every outlook one can go on to
where a program may end (`viable_of_run`); and with a token that may not come next they cease to be
viable (`not_viable_of_takes`).

So the parser finds an error as early as it can be found. Up to its first error the tokens are
viable, and with the token at which it is they are not; only a line break that is missing behind a
block keyword is an error at the keyword, with which the tokens are still viable
(`parse_detects_first`).
-/
namespace SLFront

/-- The tokens of some source text without errors start with these. They end with the end of input.
The parser does not look at the places of tokens, so the places may be others. -/
def Viable (ts : List Token) : Prop :=
  ∃ source filename us bs, tokenize source filename = .ok us ∧
    parse source filename = .ok (bs, []) ∧ ts.map Token.unplaced <+: us.map Token.unplaced

/-! ## Tokens of a source text -/

theorem Lexer.isWellSpelled_of_drain {l l' : Lexer} {ts : List Token} (hp : l.peeked = none)
    (h : l.drain = .ok ts l') :
    ∀ t ∈ ts, t.kind ≠ .endOfInput → t.kind ≠ .illegal → t.isWellSpelled := by
  induction ts generalizing l with
  | nil => simp
  | cons t ts ih =>
    obtain ⟨u, l₁, hu, hts⟩ := drain_eq_ok h
    have hspelled := Scanner.isWellSpelled_of_scan (scan_of_next hp hu)
    rcases hts with ⟨-, hts⟩ | ⟨-, us, hus, hts⟩ <;> obtain ⟨rfl, rfl⟩ := List.cons.inj hts
    · exact List.forall_mem_singleton.2 hspelled
    · exact List.forall_mem_cons.2 ⟨hspelled, ih (peeked_of_next hu) hus⟩

section
variable {source filename : String} {ts before after : List Token} {x : Token} {q : Outlook}

theorem isWellSpelled_of_tokenize (h : tokenize source filename = .ok ts) :
    ∀ t ∈ ts, t.kind ≠ .endOfInput → t.kind ≠ .illegal → t.isWellSpelled := by
  unfold tokenize at h
  split at h
  · rename_i hdrain
    cases h
    exact Lexer.isWellSpelled_of_drain rfl hdrain
  · cases h

/-- There is a source text that has these tokens, up to their places, if they can be written. -/
theorem exists_source (hts : ∀ t ∈ ts, t.isWellSpelled) (filename : String) :
    ∃ source us e, tokenize source filename = .ok (us ++ [e]) ∧ e.kind = .endOfInput ∧
      us.map Token.unplaced = ts.map Token.unplaced := by
  obtain ⟨cs, hcs⟩ := exists_spaced (ts.map Token.lexeme)
  obtain ⟨us, e, l, hdrain, hmap⟩ := Lexer.readsBack_of_spaced hcs ts 0
    (.start (String.ofList cs) filename) rfl hts rfl (String.toList_ofList ..)
  have htokens : tokenize (String.ofList cs) filename = .ok (us ++ [e]) := by
    rw [tokenize, hdrain]
  obtain ⟨us', e', hus, he⟩ := exists_endOfInput htokens
  obtain ⟨-, hlast⟩ := List.append_inj' hus rfl
  obtain rfl := (List.cons.inj hlast).1
  exact ⟨_, us, e, htokens, he, hmap⟩

/-- Where no token is one that may not come where it stands, there are no errors. -/
theorem errors_eq_nil_of_run {us : List Token} {e : Token}
    (h : tokenize source filename = .ok (us ++ [e])) (he : e.kind = .endOfInput)
    (hrun : Outlook.statement.run us = some q) (hq : q.accepts) :
    ∃ bs, parse source filename = .ok (bs, []) := by
  obtain ⟨s, t, bs, -, -, -, -, -, hparse⟩ := exists_run_of_tokenize h
  cases herrors : t.errors with
  | nil => exact ⟨_, by rw [hparse, herrors]⟩
  | cons f fs =>
    rw [herrors] at hparse
    obtain ⟨before, x, after, q', hsplit, hbefore, hx⟩ := (detects_of_parse h hparse).exists_token
    have htakes := Outlook.takes_of_run hrun hq he hsplit hbefore
    rw [hx] at htakes
    cases htakes

/-- Tokens that have an outlook are viable. -/
theorem viable_of_run (h : Outlook.statement.run before = some q)
    (hspelled : ∀ t ∈ before, t.isWellSpelled) : Viable before := by
  obtain ⟨q', hcompletion, hq'⟩ := q.run_completion
  have hrun : Outlook.statement.run (before ++ q.completion) = some q' := by
    rw [Outlook.run_append h, hcompletion]
  have hall : ∀ t ∈ before ++ q.completion, t.isWellSpelled :=
    List.forall_mem_append.2 ⟨hspelled, q.isWellSpelled_completion⟩
  obtain ⟨source, us, e, hus, he, hmap⟩ := exists_source hall Location.fromString
  have hrun' : Outlook.statement.run us = some q' := by
    rw [← Outlook.run_map_unplaced, hmap, Outlook.run_map_unplaced, hrun]
  obtain ⟨bs, hbs⟩ := errors_eq_nil_of_run hus he hrun' hq'
  refine ⟨source, _, _, bs, hus, hbs, ?_⟩
  rw [List.map_append, hmap, List.map_append, List.append_assoc]
  exact List.prefix_append ..

/-- Tokens cease to be viable with one that may not come next. -/
theorem not_viable_of_takes (h : Outlook.statement.run before = some q)
    (hx : q.takes x.kind = false) : ¬ Viable (before ++ [x]) := by
  rintro ⟨source, filename, us, bs, hus, hparse, ws, hws⟩
  obtain ⟨vs, e, rfl, he, hspell⟩ := allSpelledBy_of_parse hus hparse
  obtain ⟨q', hrun, hq'⟩ := Outlook.run_of_allSpelledBy (q := .statement) hspell rfl
  rw [List.map_append, List.append_assoc] at hws
  obtain ⟨before', rest, hsplit, hbefore, hrest⟩ := List.map_eq_append_iff.1 hws.symm
  obtain ⟨x', after, rfl, hx', -⟩ := List.map_eq_cons_iff.1 hrest
  have hbefore' : Outlook.statement.run before' = some q := by
    rw [← Outlook.run_map_unplaced, hbefore, Outlook.run_map_unplaced, h]
  have htakes := Outlook.takes_of_run hrun hq' he hsplit hbefore'
  rw [Token.kind_eq_of_unplaced hx', hx] at htakes
  cases htakes

/-- The first error is found at the first token with which the tokens cease to be viable. If it is
that a line break is missing, it is at the block keyword before that token. -/
theorem parse_detects_first (h : tokenize source filename = .ok ts) :
    ∃ bs es, parse source filename = .ok (bs, es) ∧ ∀ e es', es = e :: es' →
      (e.kind ≠ .expectedNewLine → ∃ before after, ts = before ++ e.token :: after ∧
        Viable before ∧ ¬ Viable (before ++ [e.token])) ∧
      (e.kind = .expectedNewLine → e.token.kind.opensBlock ∧ ∃ before x after,
        ts = before ++ e.token :: x :: after ∧ Viable (before ++ [e.token]) ∧
          ¬ Viable (before ++ [e.token, x])) := by
  obtain ⟨s, t, -, -, -, -, -, -, hparse⟩ := exists_run_of_tokenize h
  refine ⟨_, _, hparse, ?_⟩
  rintro e es' hes
  rw [hes] at hparse
  have hspelled := isWellSpelled_of_tokenize h
  -- Tokens that have been read are neither the end of input nor illegal.
  have hviable : ∀ {us vs : List Token} {q : Outlook}, ts = us ++ vs →
      Outlook.statement.run us = some q → Viable us := by
    rintro us vs q rfl hrun
    refine viable_of_run hrun fun t ht => ?_
    obtain ⟨hend, hillegal⟩ := Outlook.ne_of_run hrun t ht
    exact hspelled t (List.mem_append_left _ ht) hend hillegal
  cases detects_of_parse h hparse with
  | atToken _ hk hsplit hrun htakes =>
    exact ⟨fun _ => ⟨_, _, hsplit, hviable hsplit hrun, not_viable_of_takes hrun htakes⟩,
      fun hk' => absurd hk' hk⟩
  | @behindKeyword before after x _ hk hopens hsplit hrun htakes =>
    have hnot := not_viable_of_takes hrun htakes
    rw [List.append_assoc] at hnot
    exact ⟨fun hk' => absurd hk hk', fun _ => ⟨hopens, before, x, after, hsplit,
      hviable (hsplit.trans (List.append_cons ..)) hrun, hnot⟩⟩

theorem parse_detects_first_no_prefix :
    let source := "var\n x = (1 +\n )\nvar\n y z"
    ∃ ts bs e es before after, tokenize source = .ok ts ∧ parse source = .ok (bs, e :: es) ∧
      e.kind = .noPrefixFound ∧ es ≠ [] ∧ ts = before ++ e.token :: after ∧ Viable before ∧
      ¬ Viable (before ++ [e.token]) := by
  intro source
  obtain ⟨ts, hts⟩ : ∃ ts, tokenize source = .ok ts := exists_tokens (by decide +kernel)
  obtain ⟨bs, es, hparse, hfirst⟩ := parse_detects_first hts
  have hkinds : (parse source).toOption.map (fun r => r.2.map SyntaxError.kind) =
      some [.noPrefixFound, .expectedEqualSign] := by
    decide +kernel
  rw [hparse] at hkinds
  obtain ⟨e, es, rfl, hkind, hes⟩ := List.map_eq_cons_iff.1 (Option.some.inj hkinds)
  obtain ⟨before, after, hsplit, hviable, hnot⟩ := (hfirst e es rfl).1 (by rw [hkind]; decide)
  have hne : es ≠ [] := by
    rintro rfl
    cases hes
  exact ⟨ts, bs, e, es, before, after, hts, hparse, hkind, hne, hsplit, hviable, hnot⟩

end
end SLFront
