import SLFront.Proofs.Restart
import SLFront.Proofs.SingleErrors

/-!
# The order of the syntax errors

The parser stands on the offending token when it finds an error, or in front of it. In the second
case the token may be one at which recovery stops, and the next statement starts with it; the only
error that such a statement can record at its first token is that a block keyword has no line break
behind it. This is why errors come in the order of their tokens, and why hardly two of them share
one (`SyntaxError.Precedes`).

Apart from missing line breaks a statement records one error at most, and recovery from it leaves
the parser in front of a word that opens a statement or of the end of input. A statement that fails
is thus the first one or starts with such a word, which bounds the errors.
-/
namespace SLFront

namespace SyntaxError
variable {e e₁ e' : SyntaxError} {skipped rest : List Token}

/-- One error comes before another: its token does, or both are at one block keyword, which was
found where something else was expected and has no line break behind it either. -/
def Precedes (e e' : SyntaxError) : Prop :=
  e.location.offset < e'.location.offset ∨
    e.token = e'.token ∧ e.token.kind.opensBlock ∧ e.kind.isAtCurrent = false ∧
      e.kind ≠ .expectedNewLine ∧ e'.kind = .expectedNewLine

theorem Precedes.offset_le (h : e.Precedes e') : e.location.offset ≤ e'.location.offset := by
  rcases h with h | ⟨h, -⟩
  · exact Int.le_of_lt h
  · exact Int.le_of_eq (congrArg (·.location.offset) h)

/-- No error comes between two at one token. -/
theorem Precedes.token_ne (h : e.Precedes e₁) (h' : e₁.Precedes e') : e.token ≠ e'.token := by
  intro heq
  have hback : e'.location.offset ≤ e.location.offset :=
    Int.le_of_eq (congrArg (·.location.offset) heq.symm)
  have hle := h.offset_le
  have hle' := h'.offset_le
  rcases h with h | ⟨-, -, -, -, hkind⟩
  · omega
  · rcases h' with h' | ⟨-, -, -, hne, -⟩
    · omega
    · exact hne hkind

/-- Recovery passes over the offending token, or goes on with it where the parser was in front of it
or at the end of input. -/
theorem SkipsTo.mem_or_head (h : e.SkipsTo skipped rest) : e.token ∈ skipped ∨
    (e.kind.isAtCurrent = false ∨ e.token.kind = .endOfInput) ∧ rest.head? = some e.token := by
  cases h with
  | behind => exact .inl List.mem_cons_self
  | atEnd _ hend => exact .inr ⟨.inr hend, rfl⟩
  | @upTo skipped rest us hk hfirst =>
    cases skipped with
    | nil => exact .inr ⟨.inl hk, by rw [show rest = _ from hfirst]; rfl⟩
    | cons x xs => exact .inl (by rw [(List.cons.inj hfirst).1]; exact List.mem_cons_self)

/-- Recovery goes on with a token at which it stops. -/
theorem SkipsTo.isBoundary_head (h : e.SkipsTo skipped rest) :
    ∃ r rs, rest = r :: rs ∧ r.kind.isBoundary := by
  cases h with
  | behind _ _ _ hrest => exact hrest
  | atEnd _ hend => exact ⟨_, _, rfl, by rw [hend]; rfl⟩
  | upTo _ _ _ hrest => exact hrest

end SyntaxError

namespace Parser
variable {s t : Parser} {c : Cursor} {ws : List Token}

/-! ## Turns -/

/-- What a statement records that starts with the token `k` and reads `us` behind it, where `rest`
is left: errors at its tokens, or one that is found in front of what is left. -/
structure TurnErrors (k : Token) (us rest : List Token) (es : List SyntaxError) : Prop where
  place : ∀ e ∈ es, e.token ∈ k :: us ∨ e.kind ≠ .expectedNewLine ∧
    (e.kind.isAtCurrent = false ∨ e.token.kind = .endOfInput) ∧ rest.head? = some e.token
  first : k.kind.isBoundary → ∀ e ∈ es, e.token = k →
    e.kind = .expectedNewLine ∧ k.kind.opensBlock
  pairwise : es.Pairwise SyntaxError.Precedes
  failure : es.countP (·.kind ≠ .expectedNewLine) = 0 ∨
    es.countP (·.kind ≠ .expectedNewLine) = 1 ∧ ∃ r rs, rest = r :: rs ∧ r.kind.isBoundary

theorem eq_of_mem_missingBreak {e : SyntaxError} (h : e ∈ s.missingBreak) :
    e = ⟨.expectedNewLine, s.current⟩ := by
  unfold missingBreak at h
  split at h
  · cases h
  · exact List.mem_singleton.1 h

theorem turnErrors_nil {k : Token} {us rest : List Token} : TurnErrors k us rest [] :=
  ⟨by simp, by simp, .nil, .inl rfl⟩

section
variable {us rest : List Token}

/-- A block that does not fail records a missing line break at its keyword. -/
theorem turnErrors_missingBreak (hopens : s.current.kind.opensBlock) :
    TurnErrors s.current us rest s.missingBreak := by
  refine ⟨fun e he => .inl ?_, fun _ e he _ => ⟨?_, hopens⟩, ?_, .inl ?_⟩
  · rw [eq_of_mem_missingBreak he]
    exact List.mem_cons_self
  · rw [eq_of_mem_missingBreak he]
  · unfold missingBreak
    split <;> simp
  · exact List.countP_eq_zero.2 fun e he => by simp [eq_of_mem_missingBreak he]

/-- The failure of a block is found behind its keyword. -/
theorem turnErrors_of_failed {skipped : List Token} {e : SyntaxError}
    (hopens : s.current.kind.opensBlock) (he : e.kind ≠ .expectedNewLine)
    (hskip : e.SkipsTo skipped rest)
    (hbehind : s.current.location.offset < e.location.offset) :
    TurnErrors s.current (us ++ skipped) rest (s.missingBreak ++ [e]) := by
  have hbreak : TurnErrors s.current (us ++ skipped) rest s.missingBreak :=
    turnErrors_missingBreak hopens
  have hcount : s.missingBreak.countP (·.kind ≠ .expectedNewLine) = 0 :=
    List.countP_eq_zero.2 fun e he => by simp [eq_of_mem_missingBreak he]
  refine ⟨?_, fun hk => ?_, ?_, .inr ⟨?_, hskip.isBoundary_head⟩⟩
  · rw [List.forall_mem_append, List.forall_mem_singleton]
    refine ⟨hbreak.place, hskip.mem_or_head.imp (fun hmem => ?_) fun hhead => ⟨he, hhead⟩⟩
    exact List.mem_cons_of_mem _ (List.mem_append_right _ hmem)
  · rw [List.forall_mem_append, List.forall_mem_singleton]
    refine ⟨hbreak.first hk, fun heq => absurd hbehind ?_⟩
    rw [SyntaxError.location, heq]
    exact Int.lt_irrefl _
  · refine List.pairwise_append.2 ⟨hbreak.pairwise, List.pairwise_singleton .., ?_⟩
    intro e' he' x hx
    rw [List.mem_singleton.1 hx, eq_of_mem_missingBreak he']
    exact .inl hbehind
  · rw [List.countP_append, hcount, List.countP_singleton, if_pos (by simpa using he)]

end

/-- The errors of a block, along tokens that stand in source order. -/
theorem YieldsBlock.turnErrors {b : Block} (h : YieldsBlock s b t)
    (hopens : s.current.kind.opensBlock) (hs : s.cursor.Upcoming ws) (hc : t.cursor.step? = some c)
    (hws : ws.Pairwise fun x y => x.location.offset < y.location.offset) :
    ∃ us rest es, t.errors = s.errors ++ es ∧ c.Upcoming rest ∧ ws = s.current :: (us ++ rest) ∧
      TurnErrors s.current us rest es := by
  obtain ⟨es, rest, -, herrors, hrest, hturn⟩ := h.turn hopens hs hc
  obtain ⟨further, hfurther, hends, -⟩ := h.exists_further
  rw [List.append_assoc] at hfurther
  have hes : es = s.missingBreak ++ further.toList :=
    List.append_cancel_left (herrors.symm.trans hfurther)
  obtain ⟨ws', hws'⟩ := hs.exists_cons
  -- The keyword is the first of the tokens that the turn reads.
  have hread : ∀ {before after}, ws = before ++ after →
      (∀ x ∈ (some b).toList.flatMap Block.tokens, x ∈ before) →
      ∃ us, before = s.current :: us := by
    intro before after hsplit hb
    have hmem : s.current ∈ before := hb _ (by simpa [h.keyword_eq] using b.keyword_mem_tokens)
    cases before with
    | nil => cases hmem
    | cons x us => exact ⟨us, by rw [(List.cons.inj (hsplit.symm.trans hws')).1]; rfl⟩
  cases hturn with
  | clean hsplit hb hclean =>
    obtain rfl : further = none := Option.eq_none_iff_forall_not_mem.2 fun e he =>
      hends.kind_ne e he
        (hclean e (hes ▸ List.mem_append_right _ (Option.mem_toList.2 he))).1
    obtain ⟨us, rfl⟩ := hread hsplit hb
    rw [Option.toList_none, List.append_nil] at hes
    exact ⟨us, rest, es, herrors, hrest, hsplit, hes ▸ turnErrors_missingBreak hopens⟩
  | @failed before es₀ skipped _ e hsplit hb hclean he hskip =>
    obtain ⟨us, rfl⟩ := hread hsplit hb
    have hes₀ : es₀ ++ [e] = s.missingBreak ++ [e] := by
      cases further with
      | none =>
        rw [Option.toList_none, List.append_nil] at hes
        have hmem : e ∈ s.missingBreak := hes ▸ List.mem_append_right _ List.mem_cons_self
        exact absurd (congrArg SyntaxError.kind (eq_of_mem_missingBreak hmem)) he
      | some x => rw [hes, (List.cons.inj (List.append_inj' hes rfl).2).1, Option.toList_some]
    have hbehind : s.current.location.offset < e.location.offset := by
      rw [hsplit] at hws
      exact List.rel_of_pairwise_cons hws (List.mem_append_right _ hskip.token_mem)
    refine ⟨us ++ skipped, rest, _, herrors, hrest, ?_, ?_⟩
    · rw [hsplit, List.append_assoc]
      rfl
    · rw [hes₀]
      exact turnErrors_of_failed hopens he hskip hbehind

/-- The errors of a statement, along tokens that stand in source order. -/
theorem turnErrors_of_statement {b : Option Block} (h : statement s = .ok b t)
    (hend : s.current.kind ≠ .endOfInput) (hs : s.cursor.Upcoming ws)
    (hc : t.cursor.step? = some c)
    (hws : ws.Pairwise fun x y => x.location.offset < y.location.offset) :
    ∃ us rest es, t.errors = s.errors ++ es ∧ c.Upcoming rest ∧ ws = s.current :: (us ++ rest) ∧
      TurnErrors s.current us rest es := by
  rcases statement_eq_ok h with ⟨rfl, -, hpass⟩ | ⟨b, rfl, hopens, hb⟩ |
    ⟨rfl, -, hopens, hplaceholder, hf⟩
  · obtain ⟨rest, hrest, rfl⟩ := hs.split_step hpass.reads hc (by simpa using hend)
    exact ⟨[], rest, [], hpass.errors, hrest, rfl, turnErrors_nil⟩
  · exact (yieldsBlock_of_eq_ok hb).turnErrors hopens hs hc hws
  · obtain ⟨vs, hvs, hskipped, hstop⟩ := fail_eq_ok hf
    obtain ⟨rest, rfl, hrest, -, -, hboundary⟩ := hs.step_boundary hend hvs.reads hskipped hstop hc
    refine ⟨vs, rest, _, hvs.errors, hrest, rfl, by simp, fun hk => ?_, List.pairwise_singleton ..,
      .inr ⟨by simp, hboundary⟩⟩
    rcases Token.Kind.isBoundary_iff.1 hk with hk | hk | hk <;> contradiction

/-! ## Runs -/

/-- What a program records that starts with the token `k`, where `us` are the tokens behind it. -/
structure Orderly (k : Token) (us : List Token) (es : List SyntaxError) : Prop where
  mem : ∀ e ∈ es, e.token ∈ k :: us
  first : k.kind.isBoundary → ∀ e ∈ es, e.token = k →
    e.kind = .expectedNewLine ∧ k.kind.opensBlock
  pairwise : es.Pairwise SyntaxError.Precedes
  count : es.countP (·.kind ≠ .expectedNewLine) ≤ 1 + us.countP (·.kind.startsStatement)
  ended : k.kind = .endOfInput → es = []

namespace TurnErrors
variable {k r : Token} {us rs : List Token} {es fs : List SyntaxError}

/-- The errors of a turn come before those of the turns behind it. The one that is found in front of
what is left is at a token with which a statement starts, or the input ends. -/
theorem precedes (h : TurnErrors k us (r :: rs) es) (h' : Orderly r rs fs)
    (hws : (k :: (us ++ r :: rs)).Pairwise fun x y => x.location.offset < y.location.offset) :
    ∀ e ∈ es, ∀ e' ∈ fs, e.Precedes e' := by
  rw [← List.cons_append] at hws
  obtain ⟨-, hrest, hlt⟩ := List.pairwise_append.1 hws
  intro e he e' he'
  rcases h.place e he with hread | ⟨hne, hplace, hhead⟩
  · exact .inl (hlt _ hread _ (h'.mem e' he'))
  · obtain rfl : r = e.token := Option.some.inj hhead
    have hahead : e.kind.isAtCurrent = false := hplace.resolve_right fun hend => by
      rw [h'.ended hend] at he'
      cases he'
    have hboundary : e.token.kind.isBoundary := by
      rcases h.failure with hnone | ⟨-, x, xs, heq, hx⟩
      · exact absurd (List.countP_eq_zero.1 hnone e he) (by simpa using hne)
      · rwa [(List.cons.inj heq).1]
    rcases List.mem_cons.1 (h'.mem e' he') with heq | hmem
    · obtain ⟨hkind, hopens⟩ := h'.first hboundary e' he' heq
      exact .inr ⟨heq.symm, hopens, hahead, hne, hkind⟩
    · exact .inl (List.rel_of_pairwise_cons hrest hmem)

/-- A turn and the turns behind it. -/
theorem orderly (h : TurnErrors k us (r :: rs) es) (h' : Orderly r rs fs)
    (hend : k.kind ≠ .endOfInput)
    (hws : (k :: (us ++ r :: rs)).Pairwise fun x y => x.location.offset < y.location.offset) :
    Orderly k (us ++ r :: rs) (es ++ fs) := by
  refine ⟨?_, fun hk => ?_, ?_, ?_, fun heq => absurd heq hend⟩
  · rw [List.forall_mem_append]
    refine ⟨fun e he => ?_, fun e he => ?_⟩
    · rcases h.place e he with hread | ⟨-, -, hhead⟩
      · rw [← List.cons_append]
        exact List.mem_append_left _ hread
      · obtain rfl : r = e.token := Option.some.inj hhead
        simp
    · exact List.mem_cons_of_mem _ (List.mem_append_right _ (h'.mem e he))
  · rw [List.forall_mem_append]
    refine ⟨h.first hk, fun e he heq => ?_⟩
    have hlt := List.rel_of_pairwise_cons hws (List.mem_append_right _ (h'.mem e he))
    rw [heq] at hlt
    exact absurd hlt (Int.lt_irrefl _)
  · exact List.pairwise_append.2 ⟨h.pairwise, h'.pairwise, h.precedes h' hws⟩
  · have hcount := h'.count
    rw [List.countP_append, List.countP_append, List.countP_cons]
    rcases h.failure with hnone | ⟨hone, x, xs, heq, hx⟩
    · omega
    · obtain ⟨rfl, rfl⟩ := List.cons.inj heq
      simp only [Token.Kind.isBoundary, Bool.or_eq_true, decide_eq_true_eq] at hx
      rcases hx with hx | hx
      · rw [h'.ended hx, hone, List.countP_nil]
        omega
      · rw [if_pos hx]
        omega

end TurnErrors

/-- The errors of a program, along tokens that stand in source order. -/
theorem orderly_of_allStatements (h : allStatements s = .ok () t) (hs : s.cursor.Upcoming ws)
    (hws : ws.Pairwise fun x y => x.location.offset < y.location.offset) :
    ∃ us es, ws = s.current :: us ∧ t.errors = s.errors ++ es ∧ Orderly s.current us es := by
  induction hr : s.remaining using Nat.strongRecOn generalizing s ws with
  | _ n ih =>
    subst hr
    obtain ⟨hend, rfl⟩ | ⟨hend, b, u, u', v, hu, hu', hv, lt, h⟩ := allStatements_eq_ok h
    · obtain ⟨us, rfl⟩ := hs.exists_cons
      exact ⟨us, [], rfl, by simp, by simp, by simp, .nil, by simp, fun _ => rfl⟩
    · obtain ⟨hcursor, -, herrors'⟩ := append?_eq_ok hu'
      obtain ⟨c, hc, rfl⟩ := advance_eq_ok_iff.1 hv
      rw [hcursor] at hc
      obtain ⟨us, rest, es, herrors, hrest, rfl, hturn⟩ := turnErrors_of_statement hu hend hs hc hws
      rw [← List.cons_append] at hws
      obtain ⟨rs, fs, rfl, hfs, horderly⟩ := ih _ lt h hrest (List.pairwise_append.1 hws).2.1 rfl
      refine ⟨_, es ++ fs, rfl, ?_, hturn.orderly horderly hend hws⟩
      rw [hfs, errors_moved, herrors', herrors, List.append_assoc]

end Parser

/-! ## Source texts -/

/-- The syntax errors of a source text are at its tokens and come in their order. Two are at one
token only if they are adjacent and the token is a block keyword, found where something else was
expected and without a line break behind it; and apart from missing line breaks there is at most one
more than words that open a statement. -/
theorem errors_in_order {source filename : String} {ts : List Token}
    (h : tokenize source filename = .ok ts) :
    ∃ bs es, parse source filename = .ok (bs, es) ∧ (∀ e ∈ es, e.token ∈ ts) ∧
      es.Pairwise (fun e e' => e.location.offset ≤ e'.location.offset) ∧
      (∀ es₁ e es₂ e' es₃, es = es₁ ++ e :: (es₂ ++ e' :: es₃) → e.token = e'.token →
        es₂ = [] ∧ e.token.kind.opensBlock ∧
          e.kind ∈ [.expectedVarDeclaration, .expectedEqualSign, .expectedTypeName,
            .expectedClosingParen] ∧
          e'.kind = .expectedNewLine) ∧
      es.countP (·.kind ≠ .expectedNewLine) ≤ 1 + ts.countP (·.kind.startsStatement) := by
  obtain ⟨s, t, -, hupcoming, herrors, -, ht, -, hparse⟩ := exists_run_of_tokenize h
  obtain ⟨us, es, rfl, hes, horderly⟩ :=
    Parser.orderly_of_allStatements ht hupcoming (pairwise_of_tokenize h)
  rw [herrors, List.nil_append] at hes
  refine ⟨t.statements, es, by rw [hparse, hes], horderly.mem,
    horderly.pairwise.imp SyntaxError.Precedes.offset_le, ?_, ?_⟩
  · rintro es₁ e es₂ e' es₃ rfl heq
    obtain ⟨-, hbehind, -⟩ := List.pairwise_append.1 horderly.pairwise
    obtain ⟨he, hbehind⟩ := List.pairwise_cons.1 hbehind
    have hlast : e' ∈ es₂ ++ e' :: es₃ := List.mem_append_right _ List.mem_cons_self
    refine ⟨List.eq_nil_iff_forall_not_mem.2 fun e₁ he₁ => ?_, ?_⟩
    · have hnext := (List.pairwise_append.1 hbehind).2.2 e₁ he₁ e' List.mem_cons_self
      exact (he e₁ (List.mem_append_left _ he₁)).token_ne hnext heq
    · rcases he e' hlast with hlt | ⟨-, hopens, hahead, hne, hkind⟩
      · rw [SyntaxError.location, SyntaxError.location, heq] at hlt
        exact absurd hlt (Int.lt_irrefl _)
      · refine ⟨hopens, ?_, hkind⟩
        generalize e.kind = kind at hahead hne
        cases kind <;> simp_all [SyntaxError.Kind.isAtCurrent]
  · refine Nat.le_trans horderly.count (Nat.add_le_add_left ?_ 1)
    rw [List.countP_cons]
    omega

/-- Here the second and the third error are at one keyword, and there are as many errors as there
can be. -/
theorem errors_in_order_shared :
    let source := ")\nvar\n x var"
    ∃ ts, tokenize source = .ok ts ∧ ∃ bs es, parse source = .ok (bs, es) ∧
      es.map SyntaxError.kind = [.unexpectedExpression, .expectedEqualSign, .expectedNewLine,
        .expectedVarDeclaration] ∧ ts.countP (·.kind.startsStatement) = 2 ∧
      (∀ e ∈ es, e.token ∈ ts) ∧
      es.Pairwise (fun e e' => e.location.offset ≤ e'.location.offset) ∧
      (∀ es₁ e es₂ e' es₃, es = es₁ ++ e :: (es₂ ++ e' :: es₃) → e.token = e'.token →
        es₂ = [] ∧ e.token.kind.opensBlock ∧
          e.kind ∈ [.expectedVarDeclaration, .expectedEqualSign, .expectedTypeName,
            .expectedClosingParen] ∧
          e'.kind = .expectedNewLine) ∧
      es.countP (·.kind ≠ .expectedNewLine) ≤ 1 + ts.countP (·.kind.startsStatement) := by
  intro source
  have hrun : (tokenize source).toOption.map (·.countP (·.kind.startsStatement)) = some 2 ∧
      (parse source).toOption.map (·.2.map SyntaxError.kind) = some [.unexpectedExpression,
        .expectedEqualSign, .expectedNewLine, .expectedVarDeclaration] := by
    decide +kernel
  obtain ⟨ts, hts⟩ : ∃ ts, tokenize source = .ok ts := exists_tokens (by decide +kernel)
  obtain ⟨bs, es, hparse, horder⟩ := errors_in_order hts
  rw [hts, hparse] at hrun
  exact ⟨ts, hts, bs, es, hparse, Option.some.inj hrun.2, Option.some.inj hrun.1, horder⟩

end SLFront
