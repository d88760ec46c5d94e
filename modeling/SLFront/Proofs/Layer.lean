import SLFront.Proofs.Walk

/-!
# Expressions by layers

The expression grammar without numbers: four layers, each with its own operators, and each made of
operands of the next tighter layer. `Parser.layer` is the recursive-descent parser that goes with
it, with one loop for each layer (`Parser.chain`), which takes the operators from left to right. The
tightest layer has prefix operators and no loop (`Parser.unary`).

`layer_eq_of_unary`, `layer_eq`, `unary_eq` and `chain_eq` are the equations of the three routines.
-/
namespace SLFront

/-- A layer of the expression grammar, from the loosest to the tightest. -/
inductive Layer
  | comparison
  | additive
  | multiplicative
  | unary
deriving DecidableEq, Repr

theorem Precedence.level_injective {p q : Precedence} (h : p.level = q.level) : p = q := by
  revert h
  cases p <;> cases q <;> decide

namespace Layer

/-- The infix operators of the layer. -/
def operators : Layer → List Symbol
  | comparison => [.lessThan, .greaterThan]
  | additive => [.plus, .minus]
  | multiplicative => [.multiply, .divide, .power]
  | unary => []

/-- The layer of the operands. -/
def operand : Layer → Layer
  | comparison => additive
  | additive => multiplicative
  | multiplicative | unary => unary

/-- A token of this type is an infix operator of the layer. -/
def takes (l : Layer) : Token.Kind → Bool
  | .symbol s => s ∈ l.operators
  | _ => false

/-- How many layers are below. -/
def height : Layer → Nat
  | comparison => 3
  | additive => 2
  | multiplicative => 1
  | unary => 0

/-- The layer at which an expression is read when the operators that bind more tightly than `p` are
asked for. -/
def ofLevel (p : Int) : Layer :=
  if p < 2 then comparison else if p = 2 then additive else if p = 3 then multiplicative else unary

theorem height_operand_lt {l : Layer} (h : l ≠ unary) : l.operand.height < l.height := by
  cases l <;> first | decide | exact absurd rfl h

theorem height_le (l : Layer) : l.height ≤ 3 := by cases l <;> decide

/-- The precedence of the operators of the layer. -/
def precedence : Layer → Precedence
  | comparison => .comparison
  | additive => .term
  | multiplicative => .factor
  | unary => .unary

theorem takes_iff {l : Layer} {k : Token.Kind} : l.takes k ↔ k.precedence? = some l.precedence := by
  rcases k with _ | _ | _ | _ | _ | k | s
  case symbol => cases l <;> cases s <;> decide
  all_goals simp [takes, Token.Kind.precedence?]

theorem ofLevel_level (l : Layer) : ofLevel l.precedence.level = l.operand := by
  cases l <;> rfl

theorem level_pos (l : Layer) : 0 < l.precedence.level := by
  cases l <;> decide

theorem ne_endOfInput_of_takes {l : Layer} {k : Token.Kind} (h : l.takes k) : k ≠ .endOfInput := by
  rintro rfl
  cases h

end Layer

namespace Parser

-- Each layer calls the next tighter one on the same state, and then its own loop, which calls both
-- only further on.
mutual

/-- The outcome of `unary`, with its bound. -/
def boundedUnary (s : Parser) : Bounded s.remaining (Option Expr) :=
  match hk : s.current.kind with
  | .identifier => ⟨.ok (some (.identifier s.current)) s, Nat.le_refl _⟩
  | .number => ⟨.ok (some (.number s.current)) s, Nat.le_refl _⟩
  | .symbol .minus | .keyword .not =>
    have alive : s.Alive := .inl (by rw [hk]; simp)
    (Bounded.advance s alive).andThen (Nat.sub_le _ _) fun _ s₁ h₁ =>
    have le₁ := Nat.le_trans h₁ (Nat.sub_le _ _)
    (boundedUnary s₁).andThen le₁ fun right s₂ h₂ =>
    ⟨.ok (right.map (.prefixOp s.current s.current.lexeme)) s₂, Nat.le_trans h₂ le₁⟩
  | .symbol .leftParen =>
    have alive : s.Alive := .inl (by rw [hk]; simp)
    (Bounded.advance s alive).andThen (Nat.sub_le _ _) fun _ s₁ h₁ =>
    have le₁ := Nat.le_trans h₁ (Nat.sub_le _ _)
    (Bounded.run skipNewlines settles_skipNewlines s₁).andThen le₁ fun _ s₂ h₂ =>
    have le₂ := Nat.le_trans h₂ le₁
    (boundedLayer .comparison s₂).andThen le₂ fun inner s₃ h₃ =>
    have le₃ := Nat.le_trans h₃ le₂
    match inner with
    | none => ⟨.ok none s₃, le₃⟩
    | some inner =>
      if s₃.next.kind = .symbol .rightParen then
        (Bounded.run Parser.advance settles_advance s₃).andThen le₃ fun _ s₄ h₄ =>
        ⟨.ok (some inner) s₄, Nat.le_trans h₄ le₃⟩
      else
        (Bounded.run (fail .expectedClosingParen s₃.next) (settles_fail _ _) s₃).andThen le₃
          fun _ s₄ h₄ => ⟨.ok none s₄, Nat.le_trans h₄ le₃⟩
  | _ =>
    (Bounded.run (fail .noPrefixFound s.current) (settles_fail _ _) s).andThen (Nat.le_refl _)
      fun _ s₁ h₁ => ⟨.ok none s₁, h₁⟩
termination_by 6 * s.remaining + 1
decreasing_by
  all_goals
    have pos := remaining_pos alive
    have := Layer.comparison.height_le
    omega

/-- The outcome of `layer`, with its bound. -/
def boundedLayer (l : Layer) (s : Parser) : Bounded s.remaining (Option Expr) :=
  if hl : l = .unary then boundedUnary s
  else
    have := Layer.height_operand_lt hl
    (boundedLayer l.operand s).andThen (Nat.le_refl _) fun left s₁ h₁ =>
    match left with
    | none => ⟨.ok none s₁, h₁⟩
    | some left => (boundedChain l left s₁).mono h₁
termination_by 6 * s.remaining + l.height + 2
decreasing_by all_goals omega

/-- The outcome of `chain`, with its bound. -/
def boundedChain (l : Layer) (left : Expr) (s : Parser) : Bounded s.remaining (Option Expr) :=
  if ht : l.takes s.next.kind then
    have alive : s.Alive := .inr (Layer.ne_endOfInput_of_takes ht)
    (Bounded.advance s alive).andThen (Nat.sub_le _ _) fun _ s₁ h₁ =>
    have le₁ := Nat.le_trans h₁ (Nat.sub_le _ _)
    (Bounded.run Parser.advance settles_advance s₁).andThen le₁ fun _ s₂ h₂ =>
    have le₂ := Nat.le_trans h₂ le₁
    (Bounded.run skipNewlines settles_skipNewlines s₂).andThen le₂ fun _ s₃ h₃ =>
    have le₃ := Nat.le_trans h₃ le₂
    (boundedLayer l.operand s₃).andThen le₃ fun right s₄ h₄ =>
    have le₄ := Nat.le_trans h₄ le₃
    match right with
    | none => ⟨.ok none s₄, le₄⟩
    | some right => (boundedChain l (.infixOp s.next s.next.lexeme left right) s₄).mono le₄
  else ⟨.ok (some left) s, Nat.le_refl _⟩
termination_by 6 * s.remaining
decreasing_by
  all_goals
    have pos := remaining_pos alive
    have := l.operand.height_le
    omega

end

/-- Parse a name, a number, a group in parentheses, or a prefix operator with its operand. -/
def unary : Parse (Option Expr) := fun s => (boundedUnary s).result

/-- Parse an expression of a layer that starts at the current token. -/
def layer (l : Layer) : Parse (Option Expr) := fun s => (boundedLayer l s).result

/-- Extend an expression by the operators of a layer, from left to right. -/
def chain (l : Layer) (left : Expr) : Parse (Option Expr) := fun s => (boundedChain l left s).result

theorem settles_layer (l : Layer) : Settles (layer l) := fun s => (boundedLayer l s).remaining_le

/-! ## Equations without bounds -/

theorem unary_eq (s : Parser) :
    unary s = (match s.current.kind with
      | .identifier => return some (.identifier s.current)
      | .number => return some (.number s.current)
      | .symbol .minus | .keyword .not => do
        advance
        let right ← unary
        return right.map (.prefixOp s.current s.current.lexeme)
      | .symbol .leftParen => do
        advance
        skipNewlines
        match ← layer .comparison with
        | none => return none
        | some inner =>
          let t ← get
          if t.next.kind = .symbol .rightParen then
            advance
            return some inner
          else
            fail .expectedClosingParen t.next
            return none
      | _ => do
        fail .noPrefixFound s.current
        return none : Parse (Option Expr)) s := by
  unfold unary
  rw [boundedUnary]
  split <;> rename_i hk <;> simp only [hk]
  · rfl
  · rfl
  · exact Bounded.result_andThen rfl fun _ _ _ => Bounded.result_andThen rfl fun _ _ _ => rfl
  · exact Bounded.result_andThen rfl fun _ _ _ => Bounded.result_andThen rfl fun _ _ _ => rfl
  · refine Bounded.result_andThen rfl fun _ _ _ => Bounded.result_andThen rfl fun _ _ _ =>
      Bounded.result_andThen rfl fun inner u _ => ?_
    cases inner with
    | none => rfl
    | some inner =>
      show Bounded.result _ = (if u.next.kind = _ then _ else _ : Parse (Option Expr)) u
      dsimp only
      by_cases hc : u.next.kind = .symbol .rightParen
      · rw [if_pos hc, if_pos hc]
        exact Bounded.result_andThen rfl fun _ _ _ => rfl
      · rw [if_neg hc, if_neg hc]
        exact Bounded.result_andThen rfl fun _ _ _ => rfl
  · exact Bounded.result_andThen rfl fun _ _ _ => rfl

/-- The tightest layer has no loop. -/
theorem layer_eq_of_unary (s : Parser) : layer .unary s = unary s := by
  unfold layer
  rw [boundedLayer, dif_pos rfl]
  rfl

/-- An expression of a layer is an operand and the operators of the layer that follow it. -/
theorem layer_eq {l : Layer} (hl : l ≠ .unary) (s : Parser) :
    layer l s = (do
      match ← layer l.operand with
      | none => return none
      | some left => chain l left : Parse (Option Expr)) s := by
  unfold layer
  rw [boundedLayer, dif_neg hl]
  refine Bounded.result_andThen rfl fun left _ _ => ?_
  cases left <;> rfl

/-- As long as an operator of the layer is next there is one more operand. -/
theorem chain_eq (l : Layer) (left : Expr) (s : Parser) :
    chain l left s = (if l.takes s.next.kind then do
        advance
        advance
        skipNewlines
        match ← layer l.operand with
        | none => return none
        | some right => chain l (.infixOp s.next s.next.lexeme left right)
      else return some left : Parse (Option Expr)) s := by
  unfold chain
  rw [boundedChain]
  by_cases ht : l.takes s.next.kind
  · rw [dif_pos ht, if_pos ht]
    refine Bounded.result_andThen rfl fun _ _ _ => Bounded.result_andThen rfl fun _ _ _ =>
      Bounded.result_andThen rfl fun _ _ _ => Bounded.result_andThen rfl fun right _ _ => ?_
    cases right <;> rfl
  · rw [dif_neg ht, if_neg ht]
    rfl

end Parser
end SLFront
