import SLFront.Parser.Bounded
import SLFront.Parser.Recovery

/-!
# Parsing expressions

An expression starts with a name, a number, a group in parentheses or a prefix operator, and goes on
with infix operators as long as they bind more tightly than is asked for. Line breaks may follow an
opening parenthesis and an infix operator. An expression that fails records one error and leaves the
parser in front of the next statement.

`Parser.expression` and `Parser.operators` are the two routines; `expression_eq` and `operators_eq`
are their equations.
-/
namespace SLFront

/-- What a token can begin an expression with. -/
inductive Opening
  | identifier
  | number
  | group
  | operator
deriving DecidableEq, Repr

/-- How a token begins an expression, if it can. -/
def Token.Kind.opening? : Token.Kind → Option Opening
  | .identifier => some .identifier
  | .number => some .number
  | .symbol .leftParen => some .group
  | .symbol .minus | .keyword .not => some .operator
  | _ => none

namespace Parser

theorem alive_of_opening {s : Parser} {o : Opening} (h : s.current.kind.opening? = some o) :
    s.Alive := by
  refine .inl fun hc => ?_
  rw [hc] at h
  cases h

theorem alive_of_precedence {s : Parser} {q : Precedence}
    (h : s.next.kind.precedence? = some q) : s.Alive := by
  refine .inr fun hn => ?_
  rw [hn] at h
  cases h

theorem remaining_pos {s : Parser} (h : s.Alive) : 0 < s.remaining := by
  have := h.weight_pos
  unfold remaining
  omega

-- The two routines call each other on the same state once, when an operand has been read: the
-- measure counts an expression for one more than its operators.
mutual

/-- The outcome of `expression`, with its bound. -/
def boundedExpression (p : Int) (s : Parser) : Bounded s.remaining (Option Expr) :=
  match ho : s.current.kind.opening? with
  | none =>
    (Bounded.run (fail .noPrefixFound s.current) (settles_fail _ _) s).andThen (Nat.le_refl _)
      fun _ s₁ h₁ => ⟨.ok none s₁, h₁⟩
  | some .identifier => boundedOperators p (.identifier s.current) s
  | some .number => boundedOperators p (.number s.current) s
  | some .operator =>
    have alive := alive_of_opening ho
    have pos := remaining_pos alive
    (Bounded.advance s alive).andThen (by omega) fun _ s₁ h₁ =>
    (boundedExpression Precedence.unary.level s₁).andThen (by omega) fun right s₂ h₂ =>
    match right with
    | none => ⟨.ok none s₂, by simp only [after_ok]; omega⟩
    | some right =>
      (boundedOperators p (.prefixOp s.current s.current.lexeme right) s₂).mono (by omega)
  | some .group =>
    have alive := alive_of_opening ho
    have pos := remaining_pos alive
    (Bounded.advance s alive).andThen (by omega) fun _ s₁ h₁ =>
    (Bounded.run skipNewlines settles_skipNewlines s₁).andThen (by omega) fun _ s₂ h₂ =>
    (boundedExpression Precedence.lowest.level s₂).andThen (by omega) fun inner s₃ h₃ =>
    match inner with
    | none => ⟨.ok none s₃, by simp only [after_ok]; omega⟩
    | some inner =>
      if s₃.next.kind = .symbol .rightParen then
        (Bounded.run Parser.advance settles_advance s₃).andThen (by omega) fun _ s₄ h₄ =>
        (boundedOperators p inner s₄).mono (by omega)
      else
        (Bounded.run (fail .expectedClosingParen s₃.next) (settles_fail _ _) s₃).andThen (by omega)
          fun _ s₄ h₄ => ⟨.ok none s₄, by simp only [after_ok]; omega⟩
termination_by 2 * s.remaining + 1

/-- The outcome of `operators`, with its bound. -/
def boundedOperators (p : Int) (left : Expr) (s : Parser) : Bounded s.remaining (Option Expr) :=
  match hq : s.next.kind.precedence? with
  | none =>
    if p < Precedence.lowest.level ∧ s.next.kind.endsExpression = false then
      (Bounded.run (notify (.noInfix s.next.kind)) (settles_notify _) s).andThen (Nat.le_refl _)
        fun _ s₁ h₁ => ⟨.ok (some left) s₁, h₁⟩
    else ⟨.ok (some left) s, Nat.le_refl _⟩
  | some q =>
    if p < q.level then
      have alive := alive_of_precedence hq
      have pos := remaining_pos alive
      (Bounded.advance s alive).andThen (by omega) fun _ s₁ h₁ =>
      (Bounded.run Parser.advance settles_advance s₁).andThen (by omega) fun _ s₂ h₂ =>
      (Bounded.run skipNewlines settles_skipNewlines s₂).andThen (by omega) fun _ s₃ h₃ =>
      (boundedExpression q.level s₃).andThen (by omega) fun right s₄ h₄ =>
      match right with
      | none => ⟨.ok none s₄, by simp only [after_ok]; omega⟩
      | some right =>
        (boundedOperators p (.infixOp s.next s.next.lexeme left right) s₄).mono (by omega)
    else ⟨.ok (some left) s, Nat.le_refl _⟩
termination_by 2 * s.remaining

end

/-- Parse an expression that starts at the current token, with the infix operators that bind more
tightly than `p`. The last token of the expression becomes the current one. -/
def expression (p : Int) : Parse (Option Expr) := fun s => (boundedExpression p s).result

/-- Extend an expression whose last token is the current one by the infix operators that bind more
tightly than `p`. -/
def operators (p : Int) (left : Expr) : Parse (Option Expr) := fun s =>
  (boundedOperators p left s).result

/-! ## Equations without bounds -/

/-- An expression is an operand and the operators that follow it. -/
theorem expression_eq (p : Int) (s : Parser) :
    expression p s = (match s.current.kind.opening? with
      | none => do
        fail .noPrefixFound s.current
        return none
      | some .identifier => operators p (.identifier s.current)
      | some .number => operators p (.number s.current)
      | some .operator => do
        advance
        match ← expression Precedence.unary.level with
        | none => return none
        | some right => operators p (.prefixOp s.current s.current.lexeme right)
      | some .group => do
        advance
        skipNewlines
        match ← expression Precedence.lowest.level with
        | none => return none
        | some inner =>
          let t ← get
          if t.next.kind = .symbol .rightParen then
            advance
            operators p inner
          else
            fail .expectedClosingParen t.next
            return none : Parse (Option Expr)) s := by
  unfold expression
  rw [boundedExpression]
  split <;> rename_i ho <;> simp only [ho]
  · exact Bounded.result_andThen rfl fun _ _ _ => rfl
  · rfl
  · rfl
  · refine Bounded.result_andThen rfl fun _ t _ => Bounded.result_andThen rfl fun right _ _ => ?_
    cases right <;> rfl
  · refine Bounded.result_andThen rfl fun _ _ _ => Bounded.result_andThen rfl fun _ _ _ =>
      Bounded.result_andThen rfl fun inner u _ => ?_
    cases inner with
    | none => rfl
    | some inner =>
      show Bounded.result _ = (if u.next.kind = _ then _ else _ : Parse (Option Expr)) u
      dsimp only
      by_cases hc : u.next.kind = .symbol .rightParen
      · rw [if_pos hc, if_pos hc]
        exact Bounded.result_andThen rfl fun _ _ _ => rfl
      · rw [if_neg hc, if_neg hc]
        exact Bounded.result_andThen rfl fun _ _ _ => rfl

/-- What follows an operand is an infix operator that binds tightly enough, with its right operand
and more operators, or nothing. -/
theorem operators_eq (p : Int) (left : Expr) (s : Parser) :
    operators p left s = (match s.next.kind.precedence? with
      | none =>
        if p < Precedence.lowest.level ∧ s.next.kind.endsExpression = false then do
          notify (.noInfix s.next.kind)
          return some left
        else return some left
      | some q =>
        if p < q.level then do
          advance
          advance
          skipNewlines
          match ← expression q.level with
          | none => return none
          | some right => operators p (.infixOp s.next s.next.lexeme left right)
        else return some left : Parse (Option Expr)) s := by
  unfold operators
  rw [boundedOperators]
  split <;> rename_i hq <;> simp only [hq]
  · split
    · exact Bounded.result_andThen rfl fun _ _ _ => rfl
    · rfl
  · split
    · refine Bounded.result_andThen rfl fun _ _ _ => Bounded.result_andThen rfl fun _ _ _ =>
        Bounded.result_andThen rfl fun _ _ _ => Bounded.result_andThen rfl fun right _ _ => ?_
      cases right <;> rfl
    · rfl

theorem settles_expression (p : Int) : Settles (expression p) := fun s =>
  (boundedExpression p s).remaining_le

end Parser
end SLFront
