import SLFront.Proofs.Walk

/-!
# Runs of the expression parser

What the two routines for expressions do when no forbidden word interrupts them, as an inductive
relation with a case for each way through them (`Task.Yields`). Every result of the routines is that
of a run (`yields_of_eq_ok`), so that what a run leaves behind can be shown by induction on it.
-/
namespace SLFront.Parser

/-- What one of the two routines is asked for. -/
inductive Task
  | expression (p : Int)
  | operators (p : Int) (left : Expr)

/-- A task leads from a state to a result and a state. -/
inductive Task.Yields : Task → Parser → Option Expr → Parser → Prop
  | noPrefix {p : Int} {s t : Parser} (ho : s.current.kind.opening? = none)
    (hf : fail .noPrefixFound s.current s = .ok () t) : Yields (.expression p) s none t
  | identifier {p : Int} {s t : Parser} {r : Option Expr}
    (ho : s.current.kind.opening? = some .identifier)
    (rest : Yields (.operators p (.identifier s.current)) s r t) : Yields (.expression p) s r t
  | number {p : Int} {s t : Parser} {r : Option Expr}
    (ho : s.current.kind.opening? = some .number)
    (rest : Yields (.operators p (.number s.current)) s r t) : Yields (.expression p) s r t
  | prefixFailed {p : Int} {s s₁ t : Parser} (ho : s.current.kind.opening? = some .operator)
    (h₁ : s.advance = .ok () s₁)
    (operand : Yields (.expression Precedence.unary.level) s₁ none t) :
    Yields (.expression p) s none t
  | prefixOp {p : Int} {s s₁ s₂ t : Parser} {right : Expr} {r : Option Expr}
    (ho : s.current.kind.opening? = some .operator) (h₁ : s.advance = .ok () s₁)
    (operand : Yields (.expression Precedence.unary.level) s₁ (some right) s₂)
    (rest : Yields (.operators p (.prefixOp s.current s.current.lexeme right)) s₂ r t) :
    Yields (.expression p) s r t
  | groupFailed {p : Int} {s s₁ s₂ t : Parser} (ho : s.current.kind.opening? = some .group)
    (h₁ : s.advance = .ok () s₁) (h₂ : skipNewlines s₁ = .ok () s₂)
    (inner : Yields (.expression Precedence.lowest.level) s₂ none t) :
    Yields (.expression p) s none t
  | groupOpen {p : Int} {s s₁ s₂ s₃ t : Parser} {e : Expr}
    (ho : s.current.kind.opening? = some .group) (h₁ : s.advance = .ok () s₁)
    (h₂ : skipNewlines s₁ = .ok () s₂)
    (inner : Yields (.expression Precedence.lowest.level) s₂ (some e) s₃)
    (hn : s₃.next.kind ≠ .symbol .rightParen)
    (hf : fail .expectedClosingParen s₃.next s₃ = .ok () t) : Yields (.expression p) s none t
  | group {p : Int} {s s₁ s₂ s₃ s₄ t : Parser} {e : Expr} {r : Option Expr}
    (ho : s.current.kind.opening? = some .group) (h₁ : s.advance = .ok () s₁)
    (h₂ : skipNewlines s₁ = .ok () s₂)
    (inner : Yields (.expression Precedence.lowest.level) s₂ (some e) s₃)
    (hn : s₃.next.kind = .symbol .rightParen) (h₄ : s₃.advance = .ok () s₄)
    (rest : Yields (.operators p e) s₄ r t) : Yields (.expression p) s r t
  | stop {p : Int} {left : Expr} {s t : Parser} (hs : NoneTighter p s) (ht : s.Passage [] [] t) :
    Yields (.operators p left) s (some left) t
  | infixFailed {p : Int} {q : Precedence} {left : Expr} {s s₁ s₂ s₃ t : Parser}
    (hq : s.next.kind.precedence? = some q) (hp : p < q.level) (h₁ : s.advance = .ok () s₁)
    (h₂ : s₁.advance = .ok () s₂) (h₃ : skipNewlines s₂ = .ok () s₃)
    (right : Yields (.expression q.level) s₃ none t) : Yields (.operators p left) s none t
  | infixOp {p : Int} {q : Precedence} {left right : Expr} {s s₁ s₂ s₃ s₄ t : Parser}
    {r : Option Expr} (hq : s.next.kind.precedence? = some q) (hp : p < q.level)
    (h₁ : s.advance = .ok () s₁) (h₂ : s₁.advance = .ok () s₂) (h₃ : skipNewlines s₂ = .ok () s₃)
    (operand : Yields (.expression q.level) s₃ (some right) s₄)
    (rest : Yields (.operators p (.infixOp s.next s.next.lexeme left right)) s₄ r t) :
    Yields (.operators p left) s r t

/-- Each result that the routine gives for the task in the state is that of a run. -/
def Task.Runs : Task → Parser → Prop
  | expression p, s => ∀ r t, Parser.expression p s = .ok r t → Yields (.expression p) s r t
  | operators p left, s => ∀ r t, Parser.operators p left s = .ok r t →
      Yields (.operators p left) s r t

/-! ## The ways through the routines -/

section
variable {p : Int} {q : Precedence} {left : Expr} {s : Parser}

theorem runs_noPrefix (ho : s.current.kind.opening? = none) : (Task.expression p).Runs s := by
  intro r t h
  rw [expression_eq_of_none ho] at h
  obtain ⟨_, _, hf, hr⟩ := bind_eq_ok_iff.1 h
  cases hr
  exact .noPrefix ho hf

theorem runs_identifier (ho : s.current.kind.opening? = some .identifier)
    (hrest : (Task.operators p (.identifier s.current)).Runs s) : (Task.expression p).Runs s := by
  intro r t h
  rw [expression_eq_of_identifier ho] at h
  exact .identifier ho (hrest r t h)

theorem runs_number (ho : s.current.kind.opening? = some .number)
    (hrest : (Task.operators p (.number s.current)).Runs s) : (Task.expression p).Runs s := by
  intro r t h
  rw [expression_eq_of_number ho] at h
  exact .number ho (hrest r t h)

theorem runs_prefixOp (ho : s.current.kind.opening? = some .operator)
    (hcalls : ∀ s₁, s.advance = .ok () s₁ → (Task.expression Precedence.unary.level).Runs s₁ ∧
      ∀ right s₂, expression Precedence.unary.level s₁ = .ok (some right) s₂ →
        (Task.operators p (.prefixOp s.current s.current.lexeme right)).Runs s₂) :
    (Task.expression p).Runs s := by
  intro r t h
  rw [expression_eq_of_operator ho] at h
  obtain ⟨_, s₁, h₁, h⟩ := bind_eq_ok_iff.1 h
  obtain ⟨right, s₂, h₂, h⟩ := bind_eq_ok_iff.1 h
  obtain ⟨hoperand, hrest⟩ := hcalls s₁ h₁
  have operand := hoperand right s₂ h₂
  cases right with
  | none =>
    cases h
    exact .prefixFailed ho h₁ operand
  | some right => exact .prefixOp ho h₁ operand (hrest right s₂ h₂ r t h)

theorem runs_group (ho : s.current.kind.opening? = some .group)
    (hcalls : ∀ s₁ s₂, s.advance = .ok () s₁ → skipNewlines s₁ = .ok () s₂ →
      (Task.expression Precedence.lowest.level).Runs s₂ ∧
        ∀ inner s₃ s₄, expression Precedence.lowest.level s₂ = .ok (some inner) s₃ →
          s₃.next.kind = .symbol .rightParen → s₃.advance = .ok () s₄ →
          (Task.operators p inner).Runs s₄) : (Task.expression p).Runs s := by
  intro r t h
  rw [expression_eq_of_group ho] at h
  obtain ⟨_, s₁, h₁, h⟩ := bind_eq_ok_iff.1 h
  obtain ⟨_, s₂, h₂, h⟩ := bind_eq_ok_iff.1 h
  obtain ⟨inner, s₃, h₃, h⟩ := bind_eq_ok_iff.1 h
  obtain ⟨hinner, hrest⟩ := hcalls s₁ s₂ h₁ h₂
  have hyields := hinner inner s₃ h₃
  cases inner with
  | none =>
    cases h
    exact .groupFailed ho h₁ h₂ hyields
  | some inner =>
    obtain ⟨_, _, hget, h⟩ := bind_eq_ok_iff.1 h
    cases hget
    by_cases hn : s₃.next.kind = .symbol .rightParen
    · rw [if_pos hn] at h
      obtain ⟨_, s₄, h₄, h⟩ := bind_eq_ok_iff.1 h
      exact .group ho h₁ h₂ hyields hn h₄ (hrest inner s₃ s₄ h₃ hn h₄ r t h)
    · rw [if_neg hn] at h
      obtain ⟨_, _, hf, hr⟩ := bind_eq_ok_iff.1 h
      cases hr
      exact .groupOpen ho h₁ h₂ hyields hn hf

theorem runs_stop (hs : NoneTighter p s) : (Task.operators p left).Runs s := by
  intro r t h
  cases hq : s.next.kind.precedence? with
  | none =>
    rw [operators_eq_of_none hq] at h
    split at h
    · obtain ⟨_, _, hn, hr⟩ := bind_eq_ok_iff.1 h
      cases hr
      exact .stop hs (.of_notify hn)
    · cases h
      exact .stop hs (.refl _)
  | some q =>
    rw [operators_eq_of_le hq (hs q hq)] at h
    cases h
    exact .stop hs (.refl _)

theorem runs_infixOp (hq : s.next.kind.precedence? = some q) (hp : p < q.level)
    (hcalls : ∀ s₁ s₂ s₃, s.advance = .ok () s₁ → s₁.advance = .ok () s₂ →
      skipNewlines s₂ = .ok () s₃ → (Task.expression q.level).Runs s₃ ∧
        ∀ right s₄, expression q.level s₃ = .ok (some right) s₄ →
          (Task.operators p (.infixOp s.next s.next.lexeme left right)).Runs s₄) :
    (Task.operators p left).Runs s := by
  intro r t h
  rw [operators_eq_of_lt hq hp] at h
  obtain ⟨_, s₁, h₁, h⟩ := bind_eq_ok_iff.1 h
  obtain ⟨_, s₂, h₂, h⟩ := bind_eq_ok_iff.1 h
  obtain ⟨_, s₃, h₃, h⟩ := bind_eq_ok_iff.1 h
  obtain ⟨right, s₄, h₄, h⟩ := bind_eq_ok_iff.1 h
  obtain ⟨hoperand, hrest⟩ := hcalls s₁ s₂ s₃ h₁ h₂ h₃
  have operand := hoperand right s₄ h₄
  cases right with
  | none =>
    cases h
    exact .infixFailed hq hp h₁ h₂ h₃ operand
  | some right => exact .infixOp hq hp h₁ h₂ h₃ operand (hrest right s₄ h₄ r t h)

end

/-- Each result of one of the two routines is that of a run. -/
theorem yields_of_eq_ok :
    (∀ p s r t, expression p s = .ok r t → Task.Yields (.expression p) s r t) ∧
      ∀ p left s r t, operators p left s = .ok r t → Task.Yields (.operators p left) s r t :=
  expression_operators_induction (P := fun p s => (Task.expression p).Runs s)
    (Q := fun p left s => (Task.operators p left).Runs s) (fun _ _ => runs_noPrefix)
    (fun _ _ => runs_identifier) (fun _ _ => runs_number) (fun _ _ => runs_prefixOp)
    (fun _ _ => runs_group) (fun _ _ _ => runs_stop) (fun _ _ _ _ => runs_infixOp)

end SLFront.Parser
