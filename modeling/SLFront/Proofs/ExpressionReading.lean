import SLFront.Proofs.ExpressionRun
import SLFront.Proofs.Spelling

/-!
# What an expression reads

An expression that is found is spelled by the tokens that were read for it, up to the current one,
and no operator that it could take comes next (`expression_eq_ok_some`). One that fails has recorded
one error on its way, at the token that it could not go on with (`expression_eq_ok_none`).

In the other direction the tokens determine the outcome: a spelling is read as its tree
(`isReadFrom_of_spelledBy`).
-/
namespace SLFront.Parser

/-! ## Success -/

/-- What a task leaves behind when it finds an expression. For operators the tokens of the left
operand are given, which end in the current token; the next token may be an operator only if the
operand can stand on its left. -/
def Task.Finds : Task → Parser → Expr → Parser → Prop
  | .expression p, s, e, t =>
    ∃ ts, s.Passage ts [] t ∧ e.SpelledBy p (s.current :: ts) ∧ NoneTighter p t
  | .operators p left, s, e, t =>
    ∀ ls, left.SpelledBy p ls →
      (∀ q, s.next.kind.precedence? = some q → left.SpelledBy (q.level - 1) ls) →
      ∃ ts, s.Passage ts [] t ∧ e.SpelledBy p (ls ++ ts) ∧ NoneTighter p t

theorem Task.Yields.finds {task : Task} {s t : Parser} {r : Option Expr}
    (h : task.Yields s r t) : ∀ e, r = some e → task.Finds s e t := by
  induction h with
  | noPrefix => rintro e ⟨⟩
  | prefixFailed => rintro e ⟨⟩
  | groupFailed => rintro e ⟨⟩
  | groupOpen => rintro e ⟨⟩
  | infixFailed => rintro e ⟨⟩
  | identifier ho _ ih =>
    intro e he
    have hk := Token.Kind.opening?_eq_identifier ho
    exact ih e he [_] (.identifier hk) fun _ _ => .identifier hk
  | number ho _ ih =>
    intro e he
    have hk := Token.Kind.opening?_eq_number ho
    exact ih e he [_] (.number hk) fun _ _ => .number hk
  | prefixOp ho h₁ _ _ ihOperand ih =>
    intro e he
    obtain ⟨ts, hts, hspell, -⟩ := ihOperand _ rfl
    obtain ⟨us, hus, he', hstop⟩ := ih e he _ (.prefixOp ho hspell) fun _ _ => .prefixOp ho hspell
    refine ⟨_, ((Passage.of_advance h₁).trans hts).trans hus, ?_, hstop⟩
    simpa [current_of_advance h₁] using he'
  | group ho h₁ h₂ _ hn h₄ _ ihInner ih =>
    intro e he
    obtain ⟨breaks, hbreaks, hnewlines, -⟩ := passage_of_skip h₁ h₂
    obtain ⟨ts, hts, hspell, -⟩ := ihInner _ rfl
    have hl := Token.Kind.opening?_eq_group ho
    obtain ⟨us, hus, he', hstop⟩ := ih e he _ (.group hl hnewlines hspell hn)
      fun _ _ => .group hl hnewlines hspell hn
    refine ⟨_, ((hbreaks.trans hts).trans (Passage.of_advance h₄)).trans hus, ?_, hstop⟩
    simpa using he'
  | stop hs ht =>
    rintro e ⟨⟩ ls hleft -
    exact ⟨[], ht, by simpa using hleft, fun q hq => hs q (ht.next_eq ▸ hq)⟩
  | infixOp hq hp h₁ h₂ h₃ _ _ ihOperand ih =>
    intro e he ls hleft hnextSpell
    obtain ⟨breaks, hbreaks, hnewlines, -⟩ := passage_of_skip h₂ h₃
    obtain ⟨rs, hrs, hspell, hoperand⟩ := ihOperand _ rfl
    -- The next operator does not bind more tightly than this one, or the operand had taken it.
    obtain ⟨us, hus, he', hstop⟩ := ih e he _ (.infixOp hq hp (hnextSpell _ hq) hnewlines hspell)
      fun q hq' => .infixOp hq (by have := hoperand q hq'; omega) (hnextSpell _ hq) hnewlines hspell
    refine ⟨_, (((Passage.of_advance h₁).trans hbreaks).trans hrs).trans hus, ?_, hstop⟩
    simpa using he'

/-- An expression that is found is spelled by the current token and those that were read after it,
up to the new current one, and an operator that it could take does not come next. -/
theorem expression_eq_ok_some {p : Int} {s t : Parser} {e : Expr}
    (h : expression p s = .ok (some e) t) :
    ∃ ts, s.Passage ts [] t ∧ e.SpelledBy p (s.current :: ts) ∧ NoneTighter p t :=
  (yields_of_eq_ok.1 p s _ t h).finds e rfl

/-! ## Failure -/

/-- From the one state to the other a routine that starts at the current token reads tokens that it
can use, meets one that it cannot, records the error and recovers. Where it has moved on to the
token already, an expression was expected there; else it has the token as the next one, and the
error is one of `kinds`. -/
inductive Fails (kinds : List SyntaxError.Kind) (s t : Parser) : Prop
  | here {ts : List Token} {u : Parser} (hu : s.Passage ts [] u)
    (hts : ∀ x ∈ (s.current :: ts).dropLast, x.kind.isBoundary = false)
    (hf : fail .noPrefixFound u.current u = .ok () t)
  | ahead {kind : SyntaxError.Kind} {ts : List Token} {u : Parser} (hk : kind ∈ kinds)
    (hu : s.Passage ts [] u) (hts : ∀ x ∈ s.current :: ts, x.kind.isBoundary = false)
    (hf : fail kind u.next u = .ok () t)

namespace Fails
variable {kinds : List SyntaxError.Kind} {s t u : Parser} {ts : List Token}

/-- A failure after tokens of no statement is a failure from the first of them on. -/
theorem of_passage (h : Fails kinds u t) (hu : s.Passage ts [] u)
    (hts : ∀ x ∈ (s.current :: ts).dropLast, x.kind.isBoundary = false) : Fails kinds s t := by
  cases h with
  | here hv hus hf =>
    refine .here (hu.trans hv) ?_ hf
    rw [hu.cons_append, List.dropLast_append_of_ne_nil (List.cons_ne_nil _ _)]
    exact List.forall_mem_append.2 ⟨hts, hus⟩
  | ahead hk hv hus hf =>
    refine .ahead hk (hu.trans hv) ?_ hf
    rw [hu.cons_append]
    exact List.forall_mem_append.2 ⟨hts, hus⟩

/-- A failure after a token that has been used already, reached by tokens of no statement. -/
theorem of_used (h : u.current.kind.isBoundary = false → Fails kinds u t) (hu : s.Passage ts [] u)
    (hts : ∀ x ∈ s.current :: ts, x.kind.isBoundary = false) : Fails kinds s t := by
  refine (h ?_).of_passage hu fun x hx => hts x (List.dropLast_subset _ hx)
  exact hts _ (hu.current_eq ▸ List.getLast_mem _)

theorem mono {kinds' : List SyntaxError.Kind} (h : Fails kinds s t) (hk : kinds ⊆ kinds') :
    Fails kinds' s t := by
  cases h with
  | here hu hts hf => exact .here hu hts hf
  | ahead hmem hu hts hf => exact .ahead (hk hmem) hu hts hf

end Fails

/-- What a task leaves behind when it fails. Operators follow a token of their left operand. -/
def Task.FailsFrom : Task → Parser → Parser → Prop
  | .expression _, s, t => Fails [.expectedClosingParen] s t
  | .operators _ _, s, t => s.current.kind.isBoundary = false → Fails [.expectedClosingParen] s t

theorem Task.Yields.failsFrom {task : Task} {s t : Parser} {r : Option Expr}
    (h : task.Yields s r t) : r = none → task.FailsFrom s t := by
  induction h with
  | stop => rintro ⟨⟩
  | noPrefix ho hf => exact fun _ => .here (.refl _) (by simp) hf
  | identifier ho _ ih => exact fun hr => ih hr (Token.Kind.isBoundary_of_opening? ho)
  | number ho _ ih => exact fun hr => ih hr (Token.Kind.isBoundary_of_opening? ho)
  | prefixFailed ho h₁ _ ih =>
    intro hr
    refine (ih hr).of_passage (.of_advance h₁) ?_
    simpa using Token.Kind.isBoundary_of_opening? ho
  | prefixOp ho h₁ operand _ _ ih =>
    intro hr
    obtain ⟨ts, hts, hspell, -⟩ := operand.finds _ rfl
    refine Fails.of_used (ih hr) ((Passage.of_advance h₁).trans hts) ?_
    simpa [current_of_advance h₁] using
      (Expr.SpelledBy.prefixOp (p := 0) ho hspell).isBoundary_eq_false
  | groupFailed ho h₁ h₂ _ ih =>
    intro hr
    obtain ⟨breaks, hbreaks, hnewlines, -⟩ := passage_of_skip h₁ h₂
    refine (ih hr).of_passage hbreaks ?_
    simp only [← List.cons_append, List.dropLast_concat, List.forall_mem_cons]
    exact ⟨Token.Kind.isBoundary_of_opening? ho, isBoundary_of_newlines hnewlines⟩
  | groupOpen ho h₁ h₂ inner _ hf _ =>
    intro _
    obtain ⟨breaks, hbreaks, hnewlines, -⟩ := passage_of_skip h₁ h₂
    obtain ⟨ts, hts, hspell, -⟩ := inner.finds _ rfl
    refine .ahead (by simp) (hbreaks.trans hts) ?_ hf
    have hall := hspell.isBoundary_eq_false
    simp only [List.append_assoc, List.singleton_append, List.forall_mem_cons,
      List.forall_mem_append] at hall ⊢
    exact ⟨Token.Kind.isBoundary_of_opening? ho, isBoundary_of_newlines hnewlines, hall⟩
  | group ho h₁ h₂ inner hn h₄ _ _ ih =>
    intro hr
    obtain ⟨breaks, hbreaks, hnewlines, -⟩ := passage_of_skip h₁ h₂
    obtain ⟨ts, hts, hspell, -⟩ := inner.finds _ rfl
    refine Fails.of_used (ih hr) ((hbreaks.trans hts).trans (Passage.of_advance h₄)) ?_
    simpa using (Expr.SpelledBy.group (p := 0) (Token.Kind.opening?_eq_group ho) hnewlines hspell
      hn).isBoundary_eq_false
  | infixFailed hq _ h₁ h₂ h₃ _ ih =>
    intro hr hcurrent
    obtain ⟨breaks, hbreaks, hnewlines, -⟩ := passage_of_skip h₂ h₃
    refine (ih hr).of_passage ((Passage.of_advance h₁).trans hbreaks) ?_
    simp only [← List.cons_append, ← List.append_assoc, List.dropLast_concat, List.forall_mem_cons,
      List.singleton_append]
    exact ⟨hcurrent, Token.Kind.isBoundary_of_precedence? hq, isBoundary_of_newlines hnewlines⟩
  | infixOp hq _ h₁ h₂ h₃ operand _ _ ih =>
    intro hr hcurrent
    obtain ⟨breaks, hbreaks, hnewlines, -⟩ := passage_of_skip h₂ h₃
    obtain ⟨ts, hts, hspell, -⟩ := operand.finds _ rfl
    refine Fails.of_used (ih hr) (((Passage.of_advance h₁).trans hbreaks).trans hts) ?_
    have hright := hspell.isBoundary_eq_false
    simp only [List.append_assoc, List.cons_append, List.nil_append, List.forall_mem_cons,
      List.forall_mem_append] at hright ⊢
    exact ⟨hcurrent, Token.Kind.isBoundary_of_precedence? hq, isBoundary_of_newlines hnewlines,
      hright⟩

/-- An expression that fails has come upon a token that it cannot go on with. -/
theorem expression_eq_ok_none {p : Int} {s t : Parser} (h : expression p s = .ok none t) :
    Fails [.expectedClosingParen] s t :=
  (yields_of_eq_ok.1 p s _ t h).failsFrom rfl

/-! ## Spellings are read -/

theorem operators_of_noneTighter {p : Int} {left : Expr} {s : Parser} (h : NoneTighter p s)
    (hp : 0 ≤ p) : operators p left s = .ok (some left) s := by
  cases hq : s.next.kind.precedence? with
  | none =>
    have hlowest : ¬ (p < Precedence.lowest.level ∧ s.next.kind.endsExpression = false) :=
      fun hc => Int.not_lt.2 hp hc.1
    rw [operators_eq_of_none hq, if_neg hlowest]
    rfl
  | some q => exact operators_eq_of_le hq (h q hq)

/-- Where the tokens lie ahead the parser reads them as the expression and goes on with the
operators that follow, provided that the first of them can have the expression on its left. -/
def IsReadFrom (p : Int) (e : Expr) (ts : List Token) : Prop :=
  ∀ {s : Parser} {us : List Token} {d : Cursor} {p' : Int}, s.cursor.Reads us d →
    s.current :: us = ts → p' ≤ p →
    (∀ q, d.next.kind.precedence? = some q → q.level ≤ p + 1) →
    expression p' s = operators p' e (s.moved d)

/-- Where no operator follows that the expression could take, the expression is complete. -/
theorem IsReadFrom.eq_ok {p : Int} {e : Expr} {ts us : List Token} {c d : Cursor}
    (h : IsReadFrom p e ts) (hp : 0 ≤ p) (hd : c.Reads us d) (hts : c.current :: us = ts)
    (hnone : ∀ q, d.next.kind.precedence? = some q → q.level ≤ p) (s : Parser) :
    expression p (s.moved c) = .ok (some e) (s.moved d) := by
  have hoperators := h (s := s.moved c) hd hts (Int.le_refl p) fun q hq => by
    have := hnone q hq
    omega
  rw [hoperators, moved_moved]
  exact operators_of_noneTighter hnone hp

/-- The parser reads a spelling as its tree. -/
theorem isReadFrom_of_spelledBy {p : Int} {e : Expr} {ts : List Token} (h : e.SpelledBy p ts) :
    IsReadFrom p e ts := by
  induction h with
  | identifier ht =>
    intro s us d p' hd hts _ _
    obtain ⟨rfl, rfl⟩ := List.cons.inj hts
    obtain rfl := hd.eq_of_nil
    exact expression_eq_of_identifier (by rw [ht]; rfl)
  | number ht =>
    intro s us d p' hd hts _ _
    obtain ⟨rfl, rfl⟩ := List.cons.inj hts
    obtain rfl := hd.eq_of_nil
    exact expression_eq_of_number (by rw [ht]; rfl)
  | prefixOp ht operand ih =>
    intro s us d p' hd hts _ _
    obtain ⟨rfl, rfl⟩ := List.cons.inj hts
    obtain ⟨x, xs, _, rfl, -⟩ := operand.exists_cons
    obtain ⟨-, c, hc, hcurrent, hrest⟩ := hd.cons
    have hoperand := ih.eq_ok (by decide) hrest (by rw [hcurrent]) (fun q hq =>
      Int.le_trans (Token.Kind.level_of_precedence? hq).2 (by decide)) s
    rw [expression_eq_of_operator ht, bind_of_ok (advance_of_step hc), bind_of_ok hoperand]
  | @group p l r e breaks ts hl hbreaks inner hr ih =>
    intro s us d p' hd hts _ _
    obtain ⟨y, ys, o, rfl, hy⟩ := inner.exists_cons
    simp only [List.cons_append, List.append_assoc] at hts
    obtain ⟨rfl, rfl⟩ := List.cons.inj hts
    obtain ⟨c₁, c₂, h₁, h₂, hcurrent, hrest⟩ :=
      skip_of_reads hd hbreaks (Token.Kind.ne_newline_of_opening? hy)
    obtain ⟨c₃, h₃, hclose⟩ := hrest.split
    obtain ⟨rfl, c₄, h₄, -, hlast⟩ := hclose.cons
    obtain rfl := hlast.eq_of_nil
    have hinner := ih.eq_ok (Int.le_refl _) h₃ (by rw [hcurrent]) (fun q hq => by
      rw [hr] at hq
      cases hq) s
    have hgroup : s.current.kind.opening? = some .group := by
      rw [hl]
      rfl
    rw [expression_eq_of_group hgroup, bind_of_ok h₁, bind_of_ok h₂, bind_of_ok hinner]
    show ((if c₃.next.kind = _ then _ else _ : Parse (Option Expr)) (s.moved c₃)) = _
    rw [if_pos hr, bind_of_ok (advance_of_step (s := s.moved c₃) h₄), moved_moved]
  | @infixOp p q t l r ls breaks rs ht hp left hbreaks right ihl ihr =>
    intro s us d p' hd hts hp' hfollow
    obtain ⟨x, ls, _, rfl, -⟩ := left.exists_cons
    obtain ⟨y, ys, o, rfl, hy⟩ := right.exists_cons
    simp only [List.cons_append, List.append_assoc] at hts
    obtain ⟨rfl, rfl⟩ := List.cons.inj hts
    obtain ⟨c₁, h₁, hrest⟩ := hd.split
    obtain ⟨rfl, c₂, h₂, -, hrest⟩ := hrest.cons
    obtain ⟨c₃, c₄, h₃, h₄, hcurrent, hrest⟩ := skip_of_reads (s := s.moved c₂) hrest hbreaks
      (Token.Kind.ne_newline_of_opening? hy)
    have hleft : expression p' s = operators p' l (s.moved c₁) := ihl h₁ rfl (by omega)
      fun q' hq' => by
        rw [ht] at hq'
        cases hq'
        omega
    have hlevel := (Token.Kind.level_of_precedence? ht).1
    have hright := ihr.eq_ok (by omega) hrest (by rw [hcurrent]) (fun q' hq' => by
      have := hfollow q' hq'
      omega) s
    rw [hleft, operators_eq_of_lt (s := s.moved c₁) ht (by omega),
      bind_of_ok (advance_of_step (s := s.moved c₁) h₂), moved_moved, bind_of_ok h₃, bind_of_ok h₄]
    exact bind_of_ok hright

end SLFront.Parser
