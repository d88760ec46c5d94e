import SLFront.Parser.Program

/-!
# Calls

Draining a lexer is a recursion, the parser skips tokens in loops, and its routines call each other.
`Call` lists the routines with the arguments and the state of a call, and `Call.Makes` says which
calls a call makes: those of the equations of the routines, `expression_eq` and the others, each in
the state that the steps before it have left behind. The turns of a loop count as calls. A token is
scanned by recursion on the text itself, so that no calls are listed for it.

Every call lowers what remains to be read, or leaves that as it is and goes to a routine of a lower
level (`Call.Makes.lower`). So all calls end (`Call.wellFounded_makes`), and what holds of a call if
it holds of those that it makes, holds of every call. That no call is missing from the list is
`Call.satisfies_of_makes`.
-/
namespace SLFront

namespace Parser
variable {α : Type} {m : Parse α} {s t : Parser} {a : α}

theorem Settles.le_of_eq_ok (hm : Settles m) (h : m s = .ok a t) : t.remaining ≤ s.remaining := by
  simpa [h] using hm s

theorem Alive.lt_of_advance (hs : s.Alive) (h : s.advance = .ok () t) :
    t.remaining < s.remaining := by
  simpa [h] using remaining_advance_lt hs

/-- A statement, its record and a step behind it use up tokens. -/
theorem remaining_lt_of_turn {b : Option Block} {s₁ s₂ s₃ : Parser}
    (hc : s.current.kind ≠ .endOfInput) (h₁ : statement s = .ok b s₁)
    (h₂ : append? b s₁ = .ok () s₂) (h₃ : s₂.advance = .ok () s₃) :
    s₃.remaining < s.remaining := by
  have le₁ := settles_statement.le_of_eq_ok h₁
  have le₂ := (settles_append? b).le_of_eq_ok h₂
  have lt₃ := remaining_advance_lt_of_le hc (Nat.le_trans le₂ le₁)
  rwa [h₃] at lt₃

end Parser

/-- A call of a routine in a state. -/
inductive Call
  /-- Take all tokens that are left. -/
  | drain (l : Lexer)
  /-- Move on while a test holds. -/
  | advanceWhile (test : Token.Kind → Token.Kind → Bool)
    (stops : test .endOfInput .endOfInput = false) (s : Parser)
  | fail (kind : SyntaxError.Kind) (token : Token) (s : Parser)
  | operators (p : Int) (left : Expr) (s : Parser)
  | expression (p : Int) (s : Parser)
  | declarationValue (name : Token) (typeName : Option Token) (s : Parser)
  | declaration (s : Parser)
  | declarations (s : Parser)
  | blockBody (keyword : Token) (s : Parser)
  | block (s : Parser)
  | statement (s : Parser)
  | allStatements (s : Parser)
  | program (s : Parser)

namespace Call

/-- A loop over line breaks stops at the end of input. -/
theorem newline_stops : decide (Token.Kind.endOfInput = .newline) = false := rfl

/-- Recovery stops at the end of input. -/
theorem boundary_stops : (!Token.Kind.endOfInput.isBoundary) = false := rfl

/-- Skip the line breaks that are next. -/
abbrev consumeNewlines (s : Parser) : Call :=
  .advanceWhile (fun _ next => next = .newline) newline_stops s

/-- Skip the current line breaks. -/
abbrev skipNewlines (s : Parser) : Call :=
  .advanceWhile (fun current _ => current = .newline) newline_stops s

/-- Skip what is left of a statement. -/
abbrev synchronize (s : Parser) : Call :=
  .advanceWhile (fun _ next => !next.isBoundary) boundary_stops s

/-- A call makes another one on its way. The states are those that the steps before it leave. -/
inductive Makes : Call → Call → Prop
  | drain {l l' : Lexer} {t : Token} (h : l.next = .ok t l') (ht : t.kind ≠ .endOfInput) :
    Makes (.drain l) (.drain l')
  | advanceWhile {test : Token.Kind → Token.Kind → Bool}
    {stops : test .endOfInput .endOfInput = false} {s s₁ : Parser}
    (ht : test s.current.kind s.next.kind) (h₁ : s.advance = .ok () s₁) :
    Makes (.advanceWhile test stops s) (.advanceWhile test stops s₁)
  | synchronize {kind : SyntaxError.Kind} {token : Token} {s s₁ : Parser}
    (h₁ : Parser.report kind token s = .ok () s₁) : Makes (.fail kind token s) (.synchronize s₁)
  | noPrefix {p : Int} {s : Parser} (ho : s.current.kind.opening? = none) :
    Makes (.expression p s) (.fail .noPrefixFound s.current s)
  | identifier {p : Int} {s : Parser} (ho : s.current.kind.opening? = some .identifier) :
    Makes (.expression p s) (.operators p (.identifier s.current) s)
  | number {p : Int} {s : Parser} (ho : s.current.kind.opening? = some .number) :
    Makes (.expression p s) (.operators p (.number s.current) s)
  | prefixOperand {p : Int} {s s₁ : Parser} (ho : s.current.kind.opening? = some .operator)
    (h₁ : s.advance = .ok () s₁) :
    Makes (.expression p s) (.expression Precedence.unary.level s₁)
  | prefixOp {p : Int} {s s₁ s₂ : Parser} {right : Expr}
    (ho : s.current.kind.opening? = some .operator) (h₁ : s.advance = .ok () s₁)
    (h₂ : Parser.expression Precedence.unary.level s₁ = .ok (some right) s₂) :
    Makes (.expression p s) (.operators p (.prefixOp s.current s.current.lexeme right) s₂)
  | groupBreaks {p : Int} {s s₁ : Parser} (ho : s.current.kind.opening? = some .group)
    (h₁ : s.advance = .ok () s₁) : Makes (.expression p s) (.skipNewlines s₁)
  | groupInner {p : Int} {s s₁ s₂ : Parser} (ho : s.current.kind.opening? = some .group)
    (h₁ : s.advance = .ok () s₁) (h₂ : s₁.skipNewlines = .ok () s₂) :
    Makes (.expression p s) (.expression Precedence.lowest.level s₂)
  | group {p : Int} {s s₁ s₂ s₃ s₄ : Parser} {inner : Expr}
    (ho : s.current.kind.opening? = some .group) (h₁ : s.advance = .ok () s₁)
    (h₂ : s₁.skipNewlines = .ok () s₂)
    (h₃ : Parser.expression Precedence.lowest.level s₂ = .ok (some inner) s₃)
    (hclosed : s₃.next.kind = .symbol .rightParen) (h₄ : s₃.advance = .ok () s₄) :
    Makes (.expression p s) (.operators p inner s₄)
  | unclosed {p : Int} {s s₁ s₂ s₃ : Parser} {inner : Expr}
    (ho : s.current.kind.opening? = some .group) (h₁ : s.advance = .ok () s₁)
    (h₂ : s₁.skipNewlines = .ok () s₂)
    (h₃ : Parser.expression Precedence.lowest.level s₂ = .ok (some inner) s₃)
    (hopen : s₃.next.kind ≠ .symbol .rightParen) :
    Makes (.expression p s) (.fail .expectedClosingParen s₃.next s₃)
  | infixBreaks {p : Int} {left : Expr} {s s₁ s₂ : Parser} {q : Precedence}
    (hq : s.next.kind.precedence? = some q) (hp : p < q.level) (h₁ : s.advance = .ok () s₁)
    (h₂ : s₁.advance = .ok () s₂) : Makes (.operators p left s) (.skipNewlines s₂)
  | infixOperand {p : Int} {left : Expr} {s s₁ s₂ s₃ : Parser} {q : Precedence}
    (hq : s.next.kind.precedence? = some q) (hp : p < q.level) (h₁ : s.advance = .ok () s₁)
    (h₂ : s₁.advance = .ok () s₂) (h₃ : s₂.skipNewlines = .ok () s₃) :
    Makes (.operators p left s) (.expression q.level s₃)
  | infixOp {p : Int} {left right : Expr} {s s₁ s₂ s₃ s₄ : Parser} {q : Precedence}
    (hq : s.next.kind.precedence? = some q) (hp : p < q.level) (h₁ : s.advance = .ok () s₁)
    (h₂ : s₁.advance = .ok () s₂) (h₃ : s₂.skipNewlines = .ok () s₃)
    (h₄ : Parser.expression q.level s₃ = .ok (some right) s₄) :
    Makes (.operators p left s) (.operators p (.infixOp s.next s.next.lexeme left right) s₄)
  | value {name : Token} {typeName : Option Token} {s s₁ s₂ : Parser}
    (hn : s.next.kind = .symbol .assign) (h₁ : s.advance = .ok () s₁)
    (h₂ : s₁.advance = .ok () s₂) :
    Makes (.declarationValue name typeName s) (.expression Precedence.lowest.level s₂)
  | noValue {name : Token} {typeName : Option Token} {s : Parser}
    (hn : s.next.kind ≠ .symbol .assign) :
    Makes (.declarationValue name typeName s) (.fail .expectedEqualSign s.next s)
  | typed {s s₁ s₂ : Parser} (hn : s.next.kind = .symbol .colon) (h₁ : s.advance = .ok () s₁)
    (ht : s₁.next.kind.isTypeName) (h₂ : s₁.advance = .ok () s₂) :
    Makes (.declaration s) (.declarationValue s.current (some s₁.next) s₂)
  | noType {s s₁ : Parser} (hn : s.next.kind = .symbol .colon) (h₁ : s.advance = .ok () s₁)
    (ht : ¬ s₁.next.kind.isTypeName) :
    Makes (.declaration s) (.fail .expectedTypeName s₁.next s₁)
  | untyped {s : Parser} (hn : s.next.kind ≠ .symbol .colon) :
    Makes (.declaration s) (.declarationValue s.current none s)
  | declaration {s s₁ : Parser} (hn : s.next.kind = .identifier) (h₁ : s.advance = .ok () s₁) :
    Makes (.declarations s) (.declaration s₁)
  | declarationBreaks {s s₁ s₂ : Parser} {d : Declaration} (hn : s.next.kind = .identifier)
    (h₁ : s.advance = .ok () s₁) (h₂ : s₁.declaration = .ok (some d) s₂) :
    Makes (.declarations s) (.consumeNewlines s₂)
  | declarations {s s₁ s₂ s₃ : Parser} {d : Declaration} (hn : s.next.kind = .identifier)
    (h₁ : s.advance = .ok () s₁) (h₂ : s₁.declaration = .ok (some d) s₂)
    (h₃ : s₂.consumeNewlines = .ok () s₃) : Makes (.declarations s) (.declarations s₃)
  | bodyBreaks {keyword : Token} {s : Parser} :
    Makes (.blockBody keyword s) (.consumeNewlines s)
  | bodyDeclarations {keyword : Token} {s s₁ : Parser} (h₁ : s.consumeNewlines = .ok () s₁)
    (hn : s₁.next.kind = .identifier) : Makes (.blockBody keyword s) (.declarations s₁)
  | noDeclaration {keyword : Token} {s s₁ : Parser} (h₁ : s.consumeNewlines = .ok () s₁)
    (hn : s₁.next.kind ≠ .identifier) :
    Makes (.blockBody keyword s) (.fail .expectedVarDeclaration s₁.next s₁)
  | body {s : Parser} (hn : s.next.kind = .newline) : Makes (.block s) (.blockBody s.current s)
  | bodyOnLine {s s₁ : Parser} (hn : s.next.kind ≠ .newline)
    (h₁ : Parser.report .expectedNewLine s.current s = .ok () s₁) :
    Makes (.block s) (.blockBody s.current s₁)
  | block {s : Parser} (hopens : s.current.kind.opensBlock) : Makes (.statement s) (.block s)
  | unexpected {s : Parser} (hn : s.current.kind ≠ .newline) (hopens : ¬ s.current.kind.opensBlock)
    (hplaceholder : ¬ s.current.kind.isPlaceholder) :
    Makes (.statement s) (.fail .unexpectedExpression s.current s)
  | statement {s : Parser} (hc : s.current.kind ≠ .endOfInput) :
    Makes (.allStatements s) (.statement s)
  | allStatements {s s₁ s₂ s₃ : Parser} {b : Option Block} (hc : s.current.kind ≠ .endOfInput)
    (h₁ : s.statement = .ok b s₁) (h₂ : Parser.append? b s₁ = .ok () s₂)
    (h₃ : s₂.advance = .ok () s₃) :
    Makes (.allStatements s) (.allStatements s₃)
  | program {s : Parser} : Makes (.program s) (.allStatements s)

/-! ## Every call ends -/

open SLFront.Parser

/-- What remains to be read where the call is made. -/
def remaining : Call → Nat
  | .drain l => l.remaining
  | .advanceWhile _ _ s | .fail _ _ s | .operators _ _ s | .expression _ s
  | .declarationValue _ _ s | .declaration s | .declarations s | .blockBody _ s | .block s
  | .statement s | .allStatements s | .program s => s.remaining

/-- The level of the routine. A call that reads nothing first goes to a routine of a lower level. -/
def level : Call → Nat
  | .drain _ | .advanceWhile .. => 0
  | .fail .. => 1
  | .operators .. => 2
  | .expression .. => 3
  | .declarationValue .. => 4
  | .declaration _ => 5
  | .declarations _ => 6
  | .blockBody .. => 7
  | .block _ => 8
  | .statement _ => 9
  | .allStatements _ => 10
  | .program _ => 11

/-- While a loop goes on, not both tokens are the end of input. -/
theorem alive_of_test {test : Token.Kind → Token.Kind → Bool}
    (stops : test .endOfInput .endOfInput = false) {s : Parser}
    (ht : test s.current.kind s.next.kind) : s.Alive := by
  by_cases hc : s.current.kind = .endOfInput
  · refine .inr fun hn => ?_
    rw [hc, hn, stops] at ht
    cases ht
  · exact .inl hc

theorem alive_of_symbol {s : Parser} {x : Symbol} (hn : s.next.kind = .symbol x) : s.Alive :=
  .inr (by simp [hn])

/-- A call lowers what remains, or leaves it as it is and goes to a lower level. -/
theorem Makes.lower {c c' : Call} (h : c.Makes c') :
    c'.remaining < c.remaining ∨ c'.remaining ≤ c.remaining ∧ c'.level < c.level := by
  have hadvance := settles_advance
  have hskip := settles_skipNewlines
  have hconsume := settles_consumeNewlines
  have hexpression := settles_expression
  cases h with
  | drain h ht =>
    have hle := Lexer.remaining_of_next_eq_ok h
    rw [Token.weight_eq_one ht] at hle
    exact .inl (Nat.lt_of_succ_le (by rwa [Nat.add_comm] at hle))
  | @advanceWhile _ stops _ _ ht h₁ => exact .inl ((alive_of_test stops ht).lt_of_advance h₁)
  | synchronize h₁ => exact .inr ⟨(settles_report _ _).le_of_eq_ok h₁, Nat.zero_lt_one⟩
  | noPrefix | identifier | number => exact .inr ⟨Nat.le_refl _, Nat.le_of_ble_eq_true rfl⟩
  | prefixOperand ho h₁ => exact .inl ((alive_of_opening ho).lt_of_advance h₁)
  | prefixOp ho h₁ h₂ =>
    have lt₁ := (alive_of_opening ho).lt_of_advance h₁
    exact .inl (Nat.lt_of_le_of_lt ((hexpression _).le_of_eq_ok h₂) lt₁)
  | groupBreaks ho h₁ => exact .inl ((alive_of_opening ho).lt_of_advance h₁)
  | groupInner ho h₁ h₂ =>
    have lt₁ := (alive_of_opening ho).lt_of_advance h₁
    exact .inl (Nat.lt_of_le_of_lt (hskip.le_of_eq_ok h₂) lt₁)
  | group ho h₁ h₂ h₃ _ h₄ =>
    have lt₁ := (alive_of_opening ho).lt_of_advance h₁
    have le₂ := hskip.le_of_eq_ok h₂
    have le₃ := (hexpression _).le_of_eq_ok h₃
    have le₄ := hadvance.le_of_eq_ok h₄
    exact .inl (by simp only [remaining]; omega)
  | unclosed ho h₁ h₂ h₃ _ =>
    have lt₁ := (alive_of_opening ho).lt_of_advance h₁
    have le₂ := hskip.le_of_eq_ok h₂
    have le₃ := (hexpression _).le_of_eq_ok h₃
    exact .inl (by simp only [remaining]; omega)
  | infixBreaks hq _ h₁ h₂ =>
    have lt₁ := (alive_of_precedence hq).lt_of_advance h₁
    exact .inl (Nat.lt_of_le_of_lt (hadvance.le_of_eq_ok h₂) lt₁)
  | infixOperand hq _ h₁ h₂ h₃ =>
    have lt₁ := (alive_of_precedence hq).lt_of_advance h₁
    have le₂ := hadvance.le_of_eq_ok h₂
    have le₃ := hskip.le_of_eq_ok h₃
    exact .inl (by simp only [remaining]; omega)
  | infixOp hq _ h₁ h₂ h₃ h₄ =>
    have lt₁ := (alive_of_precedence hq).lt_of_advance h₁
    have le₂ := hadvance.le_of_eq_ok h₂
    have le₃ := hskip.le_of_eq_ok h₃
    have le₄ := (hexpression _).le_of_eq_ok h₄
    exact .inl (by simp only [remaining]; omega)
  | value hn h₁ h₂ =>
    have lt₁ := (alive_of_symbol hn).lt_of_advance h₁
    exact .inl (Nat.lt_of_le_of_lt (hadvance.le_of_eq_ok h₂) lt₁)
  | noValue => exact .inr ⟨Nat.le_refl _, Nat.le_of_ble_eq_true rfl⟩
  | typed hn h₁ _ h₂ =>
    have lt₁ := (alive_of_symbol hn).lt_of_advance h₁
    exact .inl (Nat.lt_of_le_of_lt (hadvance.le_of_eq_ok h₂) lt₁)
  | noType hn h₁ => exact .inl ((alive_of_symbol hn).lt_of_advance h₁)
  | untyped => exact .inr ⟨Nat.le_refl _, Nat.le_of_ble_eq_true rfl⟩
  | declaration hn h₁ => exact .inl ((alive_of_identifier hn).lt_of_advance h₁)
  | declarationBreaks hn h₁ h₂ =>
    have lt₁ := (alive_of_identifier hn).lt_of_advance h₁
    exact .inl (Nat.lt_of_le_of_lt (settles_declaration.le_of_eq_ok h₂) lt₁)
  | declarations hn h₁ h₂ h₃ =>
    have lt₁ := (alive_of_identifier hn).lt_of_advance h₁
    have le₂ := settles_declaration.le_of_eq_ok h₂
    have le₃ := hconsume.le_of_eq_ok h₃
    exact .inl (by simp only [remaining]; omega)
  | bodyBreaks => exact .inr ⟨Nat.le_refl _, Nat.le_of_ble_eq_true rfl⟩
  | bodyDeclarations h₁ | noDeclaration h₁ =>
    exact .inr ⟨hconsume.le_of_eq_ok h₁, Nat.le_of_ble_eq_true rfl⟩
  | body => exact .inr ⟨Nat.le_refl _, Nat.le_of_ble_eq_true rfl⟩
  | bodyOnLine _ h₁ => exact .inr ⟨(settles_report _ _).le_of_eq_ok h₁, Nat.le_of_ble_eq_true rfl⟩
  | block | unexpected | statement => exact .inr ⟨Nat.le_refl _, Nat.le_of_ble_eq_true rfl⟩
  | allStatements hc h₁ h₂ h₃ => exact .inl (remaining_lt_of_turn hc h₁ h₂ h₃)
  | program => exact .inr ⟨Nat.le_refl _, Nat.le_of_ble_eq_true rfl⟩

/-- No call goes on for ever. -/
theorem wellFounded_makes : WellFounded fun c' c : Call => c.Makes c' := by
  refine Subrelation.wf (fun {c' c} h => ?_) (InvImage.wf (fun c : Call => (c.remaining, c.level))
    (Prod.lex Nat.lt_wfRel Nat.lt_wfRel).wf)
  rcases h.lower with hlt | ⟨hle, hlt⟩
  · exact .left _ _ hlt
  · rcases Nat.lt_or_eq_of_le hle with hlt' | heq
    · exact .left _ _ hlt'
    · show Prod.Lex _ _ (c'.remaining, c'.level) (c.remaining, c.level)
      rw [heq]
      exact .right _ hlt

end Call
end SLFront
