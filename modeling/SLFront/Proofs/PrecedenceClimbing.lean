import SLFront.Proofs.ExpressionReading
import SLFront.Proofs.Layer

/-!
# One loop over numbers is four nested loops

The expression parser compares numbers in a single loop. Reading the operators that bind more
tightly than `p` can be done in two turns, first those that bind more tightly than some larger `q`
(`expression_eq_bindSome`). Where no operator tighter than a layer comes next, the loop that takes
the layer's operators is the loop of the layer (`operators_eq_chain`). Hence the parser with numbers
is the recursive-descent parser by layers (`expression_eq_layer`).

## Main definitions

* `operand`, `rightOperand` — what stands between the operators.
* `expression_eq_layer` — the parser with numbers is the parser by layers, from level 0 on.
* `quietly` — an outcome without its notices, the only thing that levels below 0 change.
* `expression_climbs_layers` — the same at every level, and where an expression ends.
-/
namespace SLFront.Parser

/-- Go on with the value of a computation, if there is one. -/
def bindSome {α β : Type} (m : Parse (Option α)) (f : α → Parse (Option β)) : Parse (Option β) := do
  match ← m with
  | none => return none
  | some a => f a

section
variable {α β γ : Type} {s t : Parser}

theorem bind_congr {m n : Parse α} {f g : α → Parse β} (hm : m s = n s)
    (h : ∀ a t, n s = .ok a t → f a t = g a t) : (m >>= f) s = (n >>= g) s := by
  cases hn : n s with
  | ok a t => rw [bind_of_ok (hm.trans hn), bind_of_ok hn, h a t hn]
  | error e t => rw [bind_of_error (hm.trans hn), bind_of_error hn]

theorem bindSome_of_ok_some {m : Parse (Option α)} {f : α → Parse (Option β)} {a : α}
    (h : m s = .ok (some a) t) : bindSome m f s = f a t :=
  bind_of_ok h

theorem bindSome_congr {m n : Parse (Option α)} {f g : α → Parse (Option β)} (hm : m s = n s)
    (h : ∀ a t, n s = .ok (some a) t → f a t = g a t) : bindSome m f s = bindSome n g s := by
  refine bind_congr hm fun r t hr => ?_
  cases r with
  | none => rfl
  | some a => exact h a t hr

theorem bindSome_bind (m : Parse α) (f : α → Parse (Option β)) (g : β → Parse (Option γ)) :
    bindSome (m >>= f) g = m >>= fun a => bindSome (f a) g :=
  bind_assoc ..

theorem bindSome_assoc (m : Parse (Option α)) (f : α → Parse (Option β))
    (g : β → Parse (Option γ)) :
    bindSome (bindSome m f) g = bindSome m fun a => bindSome (f a) g := by
  refine (bindSome_bind m _ g).trans (congrArg (m >>= ·) ?_)
  funext a
  cases a with
  | none => exact pure_bind ..
  | some a => rfl

end

/-! ## Operands -/

/-- Parse what the operators of an expression stand between, from the way in which its first token
`t` begins it: a name, a number, a group in parentheses, or a prefix operator with its operand. -/
def operandFrom (t : Token) : Option Opening → Parse (Option Expr)
  | none => do
    fail .noPrefixFound t
    return none
  | some .identifier => return some (.identifier t)
  | some .number => return some (.number t)
  | some .operator => do
    advance
    return (← expression Precedence.unary.level).map (.prefixOp t t.lexeme)
  | some .group => do
    advance
    skipNewlines
    bindSome (expression Precedence.lowest.level) fun inner => do
      let u ← get
      if u.next.kind = .symbol .rightParen then
        advance
        return some inner
      else
        fail .expectedClosingParen u.next
        return none

/-- Parse the operand that starts at the current token. -/
def operand : Parse (Option Expr) := fun s => operandFrom s.current s.current.kind.opening? s

/-- Parse the right operand of the infix operator that comes next. -/
def rightOperand (m : Parse (Option Expr)) : Parse (Option Expr) := do
  advance
  advance
  skipNewlines
  m

variable {p : Int} {s t : Parser} {left : Expr} {q : Precedence}

/-- An expression is an operand and the operators that follow it. -/
theorem expression_eq_bindSome_operand (p : Int) (s : Parser) :
    expression p s = bindSome operand (operators p) s := by
  show _ = bindSome (operandFrom s.current s.current.kind.opening?) (operators p) s
  cases ho : s.current.kind.opening? with
  | none =>
    rw [expression_eq_of_none ho, operandFrom, bindSome_bind]
    exact bind_congr rfl fun _ _ _ => rfl
  | some o =>
    cases o with
    | identifier => exact expression_eq_of_identifier ho
    | number => exact expression_eq_of_number ho
    | operator =>
      rw [expression_eq_of_operator ho, operandFrom, bindSome_bind]
      refine bind_congr rfl fun _ s₁ _ => ?_
      rw [bindSome_bind]
      refine bind_congr rfl fun right s₂ _ => ?_
      cases right <;> rfl
    | group =>
      rw [expression_eq_of_group ho, operandFrom, bindSome_bind]
      refine bind_congr rfl fun _ s₁ _ => ?_
      rw [bindSome_bind]
      refine bind_congr rfl fun _ s₂ _ => ?_
      rw [bindSome_assoc]
      refine bind_congr rfl fun inner s₃ _ => ?_
      cases inner with
      | none => rfl
      | some inner =>
        show _ = bindSome (get >>= _) _ s₃
        rw [bindSome_bind]
        refine bind_congr (m := get) rfl fun u s₄ hu => ?_
        cases hu
        by_cases hn : s₃.next.kind = .symbol .rightParen
        · rw [if_pos hn, if_pos hn, bindSome_bind]
          rfl
        · rw [if_neg hn, if_neg hn, bindSome_bind]
          rfl

/-- An operator that is taken is followed by its right operand and more operators. -/
theorem operators_eq_bindSome_rightOperand (hq : s.next.kind.precedence? = some q)
    (hp : p < q.level) :
    operators p left s = bindSome (rightOperand (expression q.level))
      (fun right => operators p (.infixOp s.next s.next.lexeme left right)) s := by
  rw [operators_eq_of_lt hq hp, rightOperand]
  simp only [bindSome_bind]
  refine bind_congr rfl fun _ _ _ => bind_congr rfl fun _ _ _ => bind_congr rfl fun _ _ _ => ?_
  refine bind_congr rfl fun right _ _ => ?_
  cases right <;> rfl

theorem lt_of_rightOperand {m : Parse (Option Expr)} (hm : Settles m) (hs : s.Alive)
    {r : Option Expr} (h : rightOperand m s = .ok r t) : t.remaining < s.remaining := by
  obtain ⟨_, s₁, h₁, h⟩ := bind_eq_ok_iff.1 h
  have hrest : Settles (do advance; skipNewlines; m) :=
    settles_advance.bind fun _ => settles_skipNewlines.bind fun _ => hm
  exact Nat.lt_of_le_of_lt (hrest.le_of_eq_ok h) (hs.lt_of_advance h₁)

theorem rightOperand_congr {m n : Parse (Option Expr)} (hs : s.Alive)
    (h : ∀ t, t.remaining < s.remaining → m t = n t) : rightOperand m s = rightOperand n s := by
  refine bind_congr rfl fun _ s₁ h₁ => bind_congr rfl fun _ s₂ h₂ =>
    bind_congr rfl fun _ s₃ h₃ => h s₃ ?_
  have lt₁ := hs.lt_of_advance h₁
  have le₂ := settles_advance.le_of_eq_ok h₂
  have le₃ := settles_skipNewlines.le_of_eq_ok h₃
  omega

theorem noneTighter_of_rightOperand {e : Expr}
    (h : rightOperand (expression p) s = .ok (some e) t) : NoneTighter p t := by
  obtain ⟨_, _, _, h⟩ := bind_eq_ok_iff.1 h
  obtain ⟨_, _, _, h⟩ := bind_eq_ok_iff.1 h
  obtain ⟨_, _, _, h⟩ := bind_eq_ok_iff.1 h
  obtain ⟨_, _, _, hstop⟩ := expression_eq_ok_some h
  exact hstop

/-! ## Two turns -/

/-- The operators that bind more tightly than `p` are those that bind more tightly than `q`, and
then the others. -/
theorem operators_eq_bindSome {p q : Int} (hpq : p ≤ q) (hq : 0 ≤ q) (left : Expr) (s : Parser) :
    operators p left s = bindSome (operators q left) (operators p) s := by
  induction hn : s.remaining using Nat.strongRecOn generalizing left s with
  | _ n ih =>
    subst hn
    by_cases hs : NoneTighter q s
    · exact (bindSome_of_ok_some (operators_of_noneTighter hs hq)).symm
    · obtain ⟨r, hr, hlt⟩ : ∃ r, s.next.kind.precedence? = some r ∧ q < r.level := by
        simpa [NoneTighter] using hs
      have hturn : operators q left s = _ := operators_eq_bindSome_rightOperand hr hlt
      rw [operators_eq_bindSome_rightOperand hr (Int.lt_of_le_of_lt hpq hlt)]
      rw [bindSome_congr hturn fun _ _ _ => rfl, bindSome_assoc]
      refine bindSome_congr rfl fun right t ht => ih _ ?_ _ t rfl
      exact lt_of_rightOperand (settles_expression _) (alive_of_precedence hr) ht

/-- An expression with the operators that bind more tightly than `q` is the left operand of those
that bind more tightly than `p`. -/
theorem expression_eq_bindSome {p q : Int} (hpq : p ≤ q) (hq : 0 ≤ q) (s : Parser) :
    expression p s = bindSome (expression q) (operators p) s := by
  calc
    expression p s = bindSome operand (operators p) s := expression_eq_bindSome_operand p s
    _ = bindSome operand (fun left => bindSome (operators q left) (operators p)) s :=
      bindSome_congr rfl fun left t _ => operators_eq_bindSome hpq hq left t
    _ = bindSome (bindSome operand (operators q)) (operators p) s := by rw [bindSome_assoc]
    _ = bindSome (expression q) (operators p) s :=
      bindSome_congr (expression_eq_bindSome_operand q s).symm fun _ _ _ => rfl

/-- Only the operators between two levels tell the expressions at these levels apart. -/
theorem expression_congr {p q : Int} (hpq : p ≤ q) (hp : 0 ≤ p)
    (h : ∀ (k : Token.Kind) r, k.precedence? = some r → r.level ≤ q → r.level ≤ p) (s : Parser) :
    expression p s = expression q s := by
  rw [expression_eq_bindSome hpq (by omega)]
  cases hq : expression q s with
  | error e t => exact bind_of_error hq
  | ok r t =>
    refine (bind_of_ok hq).trans ?_
    cases r with
    | none => rfl
    | some e =>
      obtain ⟨_, _, _, hstop⟩ := expression_eq_ok_some hq
      exact operators_of_noneTighter (fun r hr => h _ r hr (hstop r hr)) hp

/-! ## Layers -/

theorem chain_eq_of_takes {l : Layer} (ht : l.takes s.next.kind) :
    chain l left s = bindSome (rightOperand (layer l.operand))
      (fun right => chain l (.infixOp s.next s.next.lexeme left right)) s := by
  rw [chain_eq, if_pos ht, rightOperand]
  simp only [bindSome_bind]
  refine bind_congr rfl fun _ _ _ => bind_congr rfl fun _ _ _ => bind_congr rfl fun _ _ _ => ?_
  refine bind_congr rfl fun right _ _ => ?_
  cases right <;> rfl

theorem chain_eq_of_not_takes {l : Layer} (ht : ¬ l.takes s.next.kind) :
    chain l left s = .ok (some left) s := by
  rw [chain_eq, if_neg ht]
  rfl

theorem layer_eq_bindSome {l : Layer} (hl : l ≠ .unary) (s : Parser) :
    layer l s = bindSome (layer l.operand) (chain l) s := by
  rw [layer_eq hl]
  refine bind_congr rfl fun left _ _ => ?_
  cases left <;> rfl

/-- Where no tighter operator comes next, the operators of a layer are taken by its loop. -/
theorem operators_eq_chain {l : Layer}
    (hoperand : ∀ t, t.remaining < s.remaining →
      expression l.precedence.level t = layer l.operand t)
    (hs : NoneTighter l.precedence.level s) (left : Expr) :
    operators (l.precedence.level - 1) left s = chain l left s := by
  induction hn : s.remaining using Nat.strongRecOn generalizing left s with
  | _ n ih =>
    subst hn
    by_cases ht : l.takes s.next.kind
    · have hprec := Layer.takes_iff.1 ht
      have alive := alive_of_precedence hprec
      have hright := rightOperand_congr alive hoperand
      rw [operators_eq_bindSome_rightOperand hprec (by omega), chain_eq_of_takes ht]
      refine bindSome_congr hright fun right t h => ?_
      have lt := lt_of_rightOperand (settles_layer _) alive h
      refine ih _ lt (fun u hu => hoperand u (Nat.lt_trans hu lt)) ?_ _ rfl
      exact noneTighter_of_rightOperand (hright.trans h)
    · have hnone : NoneTighter (l.precedence.level - 1) s := by
        intro q hq
        have hne : q ≠ l.precedence := by
          rintro rfl
          exact ht (Layer.takes_iff.2 hq)
        have hlevel := mt Precedence.level_injective hne
        have := hs q hq
        omega
      have hpos := l.level_pos
      rw [operators_of_noneTighter hnone (by omega), chain_eq_of_not_takes ht]

/-- Where the operands are those of a layer, the expressions with its operators are the layer. -/
theorem expression_eq_layer_of_operand {l : Layer} (hl : l ≠ .unary)
    (hsmaller : ∀ t, t.remaining < s.remaining →
      expression l.precedence.level t = layer l.operand t)
    (hsame : expression l.precedence.level s = layer l.operand s) :
    expression (l.precedence.level - 1) s = layer l s := by
  have hpos := l.level_pos
  rw [expression_eq_bindSome (Int.sub_le_self _ (by decide)) (Int.le_of_lt hpos),
    layer_eq_bindSome hl]
  refine bindSome_congr hsame fun left t h => ?_
  have le := (settles_layer _).le_of_eq_ok h
  obtain ⟨_, _, _, hstop⟩ := expression_eq_ok_some (hsame.trans h)
  exact operators_eq_chain (fun u hu => hsmaller u (Nat.lt_of_lt_of_le hu le)) hstop left

/-- Above the levels of all operators an expression is a single operand. -/
theorem expression_eq_operand (hp : 4 ≤ p) (s : Parser) : expression p s = operand s := by
  rw [expression_eq_bindSome_operand]
  cases h : operand s with
  | error e t => exact bind_of_error h
  | ok r t =>
    refine (bind_of_ok h).trans ?_
    cases r with
    | none => rfl
    | some e =>
      refine operators_of_noneTighter (fun q hq => ?_) (by omega)
      exact Int.le_trans (Token.Kind.level_of_precedence? hq).2 hp

/-- The tightest layer reads an operand, if all layers read expressions further on. -/
theorem unary_eq_operand
    (ih : ∀ t, t.remaining < s.remaining → ∀ q, 0 ≤ q → expression q t = layer (.ofLevel q) t) :
    unary s = operand s := by
  have hunary : ∀ t, t.remaining < s.remaining →
      unary t = expression Precedence.unary.level t := by
    intro t ht
    rw [ih t ht _ (by decide)]
    exact (layer_eq_of_unary t).symm
  have hcomparison : ∀ t, t.remaining < s.remaining →
      layer .comparison t = expression Precedence.lowest.level t := by
    intro t ht
    rw [ih t ht _ (by decide)]
    rfl
  show _ = operandFrom s.current s.current.kind.opening? s
  have h := unary_eq s
  cases ho : s.current.kind.opening? with
  | none =>
    rw [h]
    generalize s.current.kind = k at ho ⊢
    rcases k with _ | _ | _ | _ | _ | k | x
    case keyword => cases k <;> first | rfl | cases ho
    case symbol => cases x <;> first | rfl | cases ho
    all_goals first | rfl | cases ho
  | some o =>
    have alive := alive_of_opening ho
    cases o with
    | identifier => rw [h, Token.Kind.opening?_eq_identifier ho]; rfl
    | number => rw [h, Token.Kind.opening?_eq_number ho]; rfl
    | operator =>
      rcases Token.Kind.opening?_eq_operator ho with hk | hk
      all_goals
        rw [h, hk, operandFrom]
        refine bind_congr rfl fun _ s₁ h₁ => bind_congr ?_ fun _ _ _ => rfl
        exact hunary s₁ (alive.lt_of_advance h₁)
    | group =>
      rw [h, Token.Kind.opening?_eq_group ho, operandFrom]
      refine bind_congr rfl fun _ s₁ h₁ => bind_congr rfl fun _ s₂ h₂ => ?_
      have lt₁ := alive.lt_of_advance h₁
      have lt₂ := Nat.lt_of_le_of_lt (settles_skipNewlines.le_of_eq_ok h₂) lt₁
      refine bind_congr (hcomparison s₂ lt₂) fun inner _ _ => ?_
      cases inner <;> rfl

/-- An expression with the operators above a level is the layer at which it starts. -/
theorem expression_eq_layer (hp : 0 ≤ p) (s : Parser) : expression p s = layer (.ofLevel p) s := by
  induction hn : s.remaining using Nat.strongRecOn generalizing p s with
  | _ n ih =>
    subst hn
    have hsmaller : ∀ l : Layer, ∀ t, t.remaining < s.remaining →
        expression l.precedence.level t = layer l.operand t := by
      intro l t ht
      rw [ih _ ht (Int.le_of_lt l.level_pos) t rfl, Layer.ofLevel_level]
    have hunary : ∀ q, 4 ≤ q → expression q s = layer .unary s := by
      intro q hq
      rw [layer_eq_of_unary, expression_eq_operand hq,
        unary_eq_operand fun t ht r hr => ih _ ht hr t rfl]
    have hmultiplicative : expression 3 s = layer .multiplicative s :=
      expression_eq_layer_of_operand (l := .multiplicative) (by decide) (hsmaller _)
        (hunary 4 (Int.le_refl _))
    have hadditive : expression 2 s = layer .additive s :=
      expression_eq_layer_of_operand (l := .additive) (by decide) (hsmaller _) hmultiplicative
    have hcomparison : expression 1 s = layer .comparison s :=
      expression_eq_layer_of_operand (l := .comparison) (by decide) (hsmaller _) hadditive
    have hlowest : expression 0 s = expression 1 s := by
      refine expression_congr (by decide) (by decide) (fun k r hr hle => ?_) s
      have := (Token.Kind.level_of_precedence? hr).1
      omega
    obtain rfl | rfl | rfl | rfl | hlarge : p = 0 ∨ p = 1 ∨ p = 2 ∨ p = 3 ∨ 4 ≤ p := by omega
    · exact hlowest.trans hcomparison
    · exact hcomparison
    · exact hadditive
    · exact hmultiplicative
    · have : Layer.ofLevel p = .unary := by
        rw [Layer.ofLevel, if_neg (by omega), if_neg (by omega), if_neg (by omega)]
      rw [this, hunary p hlarge]

/-! ## Any level -/

/-- The outcome without the notices that were left. -/
def quietly {α : Type} : EStateM.Result LexicalError Parser α → EStateM.Result LexicalError Parser α
  | .ok a s => .ok a { s with notices := [] }
  | .error e s => .error e { s with notices := [] }

/-- Below the lowest level an expression is the same, but it may leave a notice of what follows. -/
theorem quietly_expression (hp : p < 0) (s : Parser) :
    quietly (expression p s) = quietly (expression 0 s) := by
  rw [expression_eq_bindSome (Int.le_of_lt hp) (Int.le_refl 0)]
  cases h : expression 0 s with
  | error e t => exact congrArg quietly (bind_of_error h)
  | ok r t =>
    refine (congrArg quietly (bind_of_ok h)).trans ?_
    cases r with
    | none => rfl
    | some e =>
      obtain ⟨_, _, _, hstop⟩ := expression_eq_ok_some h
      have hnone : t.next.kind.precedence? = none := by
        cases hq : t.next.kind.precedence? with
        | none => rfl
        | some q =>
          have := hstop q hq
          have := (Token.Kind.level_of_precedence? hq).1
          omega
      show quietly (operators p e t) = _
      rw [operators_eq_of_none hnone]
      split <;> rfl

/-- The expression parser is the recursive-descent parser by layers, at any level of precedence: it
gives the same tree and the same errors, and stops at the same place. An expression that is found
ends with the token that is the current one then. -/
theorem expression_climbs_layers (p : Int) (s : Parser) :
    quietly (expression p s) = quietly (layer (.ofLevel p) s) ∧
      ∀ e t, expression p s = .ok (some e) t → ∃ ts, s.cursor.Reads ts t.cursor ∧
        e.SpelledBy p (s.current :: ts) ∧ (s.current :: ts).getLast? = some t.current := by
  refine ⟨?_, fun e t h => ?_⟩
  · rcases Int.lt_or_le p 0 with hp | hp
    · have hlevel : Layer.ofLevel p = Layer.ofLevel 0 := by
        rw [Layer.ofLevel, Layer.ofLevel, if_pos (by omega), if_pos (by decide)]
      rw [quietly_expression hp, expression_eq_layer (Int.le_refl 0), hlevel]
    · rw [expression_eq_layer hp]
  · obtain ⟨ts, hts, hspell, -⟩ := expression_eq_ok_some h
    refine ⟨ts, hts.reads, hspell, ?_⟩
    rw [hts.current_eq, List.getLast?_eq_some_getLast]

theorem expression_climbs_layers_sum :
    let s : Parser :=
      { lexer := .start "b ]", current := ⟨.identifier, "a", .mk "" 1 1 0⟩
        next := ⟨.symbol .plus, "+", .mk "" 1 3 2⟩ }
    quietly (expression (-7) s) = quietly (layer .comparison s) ∧
      ∃ e t, expression (-7) s = .ok (some e) t ∧ ∃ ts, s.cursor.Reads ts t.cursor ∧
        e.SpelledBy (-7) (s.current :: ts) ∧ (s.current :: ts).getLast? = some t.current := by
  intro s
  obtain ⟨hquiet, hfound⟩ := expression_climbs_layers (-7) s
  have hsome : (EStateM.run' (expression (-7)) s).join.isSome := by decide +kernel
  refine ⟨hquiet, ?_⟩
  unfold EStateM.run' EStateM.run at hsome
  cases h : expression (-7) s with
  | error e t =>
    rw [h] at hsome
    cases hsome
  | ok r t =>
    cases r with
    | none =>
      rw [h] at hsome
      cases hsome
    | some e => exact ⟨e, t, rfl, hfound e t h⟩

end SLFront.Parser
