import SLFront.Proofs.Calls
import SLFront.Proofs.Reading

/-!
# Routines as walks

The two routines for expressions call each other, and what holds of them is shown by induction on
their calls (`expression_operators_induction`).

Every routine of the parser is made of four kinds of steps: moving on, reporting, noticing and
recording a statement. `Compositional` says what a relation between the state before and the outcome
has to satisfy to hold of whatever is made of the first three, and so of every routine up to a
statement; with the fourth it holds of whole programs. This is shown once for all routines, by
induction on their calls: such a relation holds of a call if it holds of those that the call makes
(`Call.satisfies_of_makes`), and so of every call (`Compositional.satisfies`).

The first use is `compositional_walks`: a routine reads some tokens, and it is interrupted only
where a token is refused (`Walks`). On a source text without forbidden words no routine is
interrupted (`Walks.exists_ok`).
-/
namespace SLFront

/-- The error that a notice is about. -/
def Notice.error? : Notice → Option SyntaxError
  | syntaxError e => some e
  | placeholder _ | noInfix _ | finished _ _ => none

namespace Parser

/-! ## The equations of the expression routines, by the token that decides -/

section
variable {p : Int} {s : Parser} {left : Expr} {q : Precedence}

theorem expression_eq_of_none (ho : s.current.kind.opening? = none) :
    expression p s = (do fail .noPrefixFound s.current; return none : Parse (Option Expr)) s := by
  have h := expression_eq p s
  rwa [ho] at h

theorem expression_eq_of_identifier (ho : s.current.kind.opening? = some .identifier) :
    expression p s = operators p (.identifier s.current) s := by
  have h := expression_eq p s
  rwa [ho] at h

theorem expression_eq_of_number (ho : s.current.kind.opening? = some .number) :
    expression p s = operators p (.number s.current) s := by
  have h := expression_eq p s
  rwa [ho] at h

theorem expression_eq_of_operator (ho : s.current.kind.opening? = some .operator) :
    expression p s = (do
      advance
      match ← expression Precedence.unary.level with
      | none => return none
      | some right => operators p (.prefixOp s.current s.current.lexeme right) :
        Parse (Option Expr)) s := by
  have h := expression_eq p s
  rwa [ho] at h

theorem expression_eq_of_group (ho : s.current.kind.opening? = some .group) :
    expression p s = (do
      advance
      skipNewlines
      match ← expression Precedence.lowest.level with
      | none => return none
      | some inner =>
        let t ← get
        if t.next.kind = .symbol .rightParen then
          advance
          operators p inner
        else
          fail .expectedClosingParen t.next
          return none : Parse (Option Expr)) s := by
  have h := expression_eq p s
  rwa [ho] at h

theorem operators_eq_of_none (hq : s.next.kind.precedence? = none) :
    operators p left s =
      (if p < Precedence.lowest.level ∧ s.next.kind.endsExpression = false then do
        notify (.noInfix s.next.kind)
        return some left
      else return some left : Parse (Option Expr)) s := by
  have h := operators_eq p left s
  rwa [hq] at h

theorem operators_eq_of_lt (hq : s.next.kind.precedence? = some q) (hp : p < q.level) :
    operators p left s = (do
      advance
      advance
      skipNewlines
      match ← expression q.level with
      | none => return none
      | some right => operators p (.infixOp s.next s.next.lexeme left right) :
        Parse (Option Expr)) s := by
  have h := operators_eq p left s
  rw [hq] at h
  exact h.trans (congrFun (if_pos hp) s)

theorem operators_eq_of_le (hq : s.next.kind.precedence? = some q) (hp : q.level ≤ p) :
    operators p left s = .ok (some left) s := by
  have h := operators_eq p left s
  rw [hq] at h
  exact h.trans (congrFun (if_neg (Int.not_lt.2 hp)) s)

end

/-- No infix operator that binds more tightly than `p` comes next. -/
def NoneTighter (p : Int) (s : Parser) : Prop :=
  ∀ q, s.next.kind.precedence? = some q → q.level ≤ p

/-- Induction on the calls of the two routines: a branch may use what holds of the calls that it
makes, at the states from which it makes them. -/
theorem expression_operators_induction {P : Int → Parser → Prop} {Q : Int → Expr → Parser → Prop}
    (noPrefix : ∀ p s, s.current.kind.opening? = none → P p s)
    (identifier : ∀ p s, s.current.kind.opening? = some .identifier →
      Q p (.identifier s.current) s → P p s)
    (number : ∀ p s, s.current.kind.opening? = some .number → Q p (.number s.current) s → P p s)
    (prefixOp : ∀ p s, s.current.kind.opening? = some .operator →
      (∀ s₁, s.advance = .ok () s₁ → P Precedence.unary.level s₁ ∧
        ∀ right s₂, expression Precedence.unary.level s₁ = .ok (some right) s₂ →
          Q p (.prefixOp s.current s.current.lexeme right) s₂) → P p s)
    (group : ∀ p s, s.current.kind.opening? = some .group →
      (∀ s₁ s₂, s.advance = .ok () s₁ → skipNewlines s₁ = .ok () s₂ →
        P Precedence.lowest.level s₂ ∧
          ∀ inner s₃ s₄, expression Precedence.lowest.level s₂ = .ok (some inner) s₃ →
            s₃.next.kind = .symbol .rightParen → s₃.advance = .ok () s₄ → Q p inner s₄) → P p s)
    (stop : ∀ p left s, NoneTighter p s → Q p left s)
    (infixOp : ∀ p left s q, s.next.kind.precedence? = some q → p < q.level →
      (∀ s₁ s₂ s₃, s.advance = .ok () s₁ → s₁.advance = .ok () s₂ → skipNewlines s₂ = .ok () s₃ →
        P q.level s₃ ∧ ∀ right s₄, expression q.level s₃ = .ok (some right) s₄ →
          Q p (.infixOp s.next s.next.lexeme left right) s₄) → Q p left s) :
    (∀ p s, P p s) ∧ ∀ p left s, Q p left s := by
  have key : ∀ c : Call, match c with
      | .expression p s => P p s
      | .operators p left s => Q p left s
      | _ => True := by
    intro c
    induction c using Call.wellFounded_makes.induction with
    | _ c ih =>
      cases c with
      | expression p s =>
        cases ho : s.current.kind.opening? with
        | none => exact noPrefix p s ho
        | some o =>
          cases o with
          | identifier => exact identifier p s ho (ih _ (.identifier ho))
          | number => exact number p s ho (ih _ (.number ho))
          | operator =>
            exact prefixOp p s ho fun s₁ h₁ =>
              ⟨ih _ (.prefixOperand ho h₁), fun right s₂ h₂ => ih _ (.prefixOp ho h₁ h₂)⟩
          | group =>
            exact group p s ho fun s₁ s₂ h₁ h₂ => ⟨ih _ (.groupInner ho h₁ h₂),
              fun inner s₃ s₄ h₃ hclosed h₄ => ih _ (.group ho h₁ h₂ h₃ hclosed h₄)⟩
      | operators p left s =>
        by_cases hs : NoneTighter p s
        · exact stop p left s hs
        · obtain ⟨q, hq, hp⟩ : ∃ q, s.next.kind.precedence? = some q ∧ p < q.level := by
            simpa [NoneTighter] using hs
          exact infixOp p left s q hq hp fun s₁ s₂ s₃ h₁ h₂ h₃ =>
            ⟨ih _ (.infixOperand hq hp h₁ h₂ h₃),
              fun right s₄ h₄ => ih _ (.infixOp hq hp h₁ h₂ h₃ h₄)⟩
      | _ => trivial
  exact ⟨fun p s => key (.expression p s), fun p left s => key (.operators p left s)⟩

/-! ## What all routines have -/

/-- A relation between the state before a computation and its outcome that the single steps have and
that sequencing keeps. An error is reported at one of the two tokens of the parser, and the notices
that are left by themselves are about no error. -/
structure Compositional
    (P : ∀ {α : Type}, Parser → EStateM.Result LexicalError Parser α → Prop) : Prop where
  pure : ∀ {α : Type} (a : α) (s : Parser), P s (.ok a s : EStateM.Result LexicalError Parser α)
  advance : ∀ s : Parser, P s s.advance
  report : ∀ (kind : SyntaxError.Kind) {x : Token} {s : Parser}, x = s.current ∨ x = s.next →
    P s (report kind x s)
  notify : ∀ {n : Notice} {s : Parser}, n.error? = none → P s (notify n s)
  bind : ∀ {α β : Type} {m : Parse α} {f : α → Parse β} {s : Parser}, P s (m s) →
    (∀ a t, m s = .ok a t → P t (f a t)) → P s ((m >>= f) s)

namespace Compositional
variable {P : ∀ {α : Type}, Parser → EStateM.Result LexicalError Parser α → Prop}

theorem get {α : Type} (h : Compositional P) {f : Parser → Parse α} {s : Parser}
    (hf : P s (f s s)) : P s ((MonadState.get >>= f) s) := by
  refine h.bind (m := MonadState.get) (h.pure s s) fun t u htu => ?_
  cases htu
  exact hf

theorem ite (_ : Compositional P) {α : Type} {c : Prop} [Decidable c] {m n : Parse α} {s : Parser}
    (hm : P s (m s)) (hn : P s (n s)) : P s ((if c then m else n : Parse α) s) := by
  split <;> assumption

end Compositional
end Parser

namespace Call
open SLFront.Parser

/-- The outcome of the call satisfies a relation to the state before it. Errors are reported at the
tokens of the parser. -/
def Satisfies (P : ∀ {α : Type}, Parser → EStateM.Result LexicalError Parser α → Prop) :
    Call → Prop
  -- The only recursion of which no outcome is a parser.
  | .drain _ => True
  | .advanceWhile test stops s => P s (Parser.advanceWhile test stops s)
  | .fail kind token s => token = s.current ∨ token = s.next → P s (Parser.fail kind token s)
  | .operators p left s => P s (Parser.operators p left s)
  | .expression p s => P s (Parser.expression p s)
  | .declarationValue name typeName s => P s (Parser.declarationValue name typeName s)
  | .declaration s => P s s.declaration
  | .declarations s => P s s.declarations
  | .blockBody keyword s => P s (Parser.blockBody keyword s)
  | .block s => P s s.block
  | .statement s => P s s.statement
  -- Statements are recorded by whole programs alone.
  | .allStatements s => (∀ b t, P t (append b t)) → P s s.allStatements
  | .program s => (∀ b t, P t (append b t)) → P s s.program

section
variable {P : ∀ {α : Type}, Parser → EStateM.Result LexicalError Parser α → Prop}

theorem satisfies_expression (h : Compositional P) {p : Int} {s : Parser}
    (hcalls : ∀ c, Makes (.expression p s) c → c.Satisfies P) : Satisfies P (.expression p s) := by
  show P s (Parser.expression p s)
  cases ho : s.current.kind.opening? with
  | none =>
    rw [expression_eq_of_none ho]
    exact h.bind (hcalls _ (.noPrefix ho) (.inl rfl)) fun _ _ _ => h.pure _ _
  | some o =>
    cases o with
    | identifier =>
      rw [expression_eq_of_identifier ho]
      exact hcalls _ (.identifier ho)
    | number =>
      rw [expression_eq_of_number ho]
      exact hcalls _ (.number ho)
    | operator =>
      rw [expression_eq_of_operator ho]
      refine h.bind (h.advance s) fun _ s₁ h₁ => ?_
      refine h.bind (hcalls _ (.prefixOperand ho h₁)) fun right s₂ h₂ => ?_
      cases right with
      | none => exact h.pure _ _
      | some right => exact hcalls _ (.prefixOp ho h₁ h₂)
    | group =>
      rw [expression_eq_of_group ho]
      refine h.bind (h.advance s) fun _ s₁ h₁ => ?_
      refine h.bind (hcalls _ (.groupBreaks ho h₁)) fun _ s₂ h₂ => ?_
      refine h.bind (hcalls _ (.groupInner ho h₁ h₂)) fun inner s₃ h₃ => ?_
      cases inner with
      | none => exact h.pure _ _
      | some inner =>
        refine h.get ?_
        by_cases hp : s₃.next.kind = .symbol .rightParen
        · rw [if_pos hp]
          exact h.bind (h.advance s₃) fun _ s₄ h₄ => hcalls _ (.group ho h₁ h₂ h₃ hp h₄)
        · rw [if_neg hp]
          exact h.bind (hcalls _ (.unclosed ho h₁ h₂ h₃ hp) (.inr rfl)) fun _ _ _ => h.pure _ _

theorem satisfies_operators (h : Compositional P) {p : Int} {left : Expr} {s : Parser}
    (hcalls : ∀ c, Makes (.operators p left s) c → c.Satisfies P) :
    Satisfies P (.operators p left s) := by
  show P s (Parser.operators p left s)
  cases hq : s.next.kind.precedence? with
  | none =>
    rw [operators_eq_of_none hq]
    exact h.ite (h.bind (h.notify rfl) fun _ _ _ => h.pure _ _) (h.pure _ s)
  | some q =>
    by_cases hp : p < q.level
    · rw [operators_eq_of_lt hq hp]
      refine h.bind (h.advance s) fun _ s₁ h₁ => ?_
      refine h.bind (h.advance s₁) fun _ s₂ h₂ => ?_
      refine h.bind (hcalls _ (.infixBreaks hq hp h₁ h₂)) fun _ s₃ h₃ => ?_
      refine h.bind (hcalls _ (.infixOperand hq hp h₁ h₂ h₃)) fun right s₄ h₄ => ?_
      cases right with
      | none => exact h.pure _ _
      | some right => exact hcalls _ (.infixOp hq hp h₁ h₂ h₃ h₄)
    · rw [operators_eq_of_le hq (Int.not_lt.1 hp)]
      exact h.pure _ s

theorem satisfies_declaration (h : Compositional P) {s : Parser}
    (hcalls : ∀ c, Makes (.declaration s) c → c.Satisfies P) : Satisfies P (.declaration s) := by
  refine h.get ?_
  by_cases hn : s.next.kind = .symbol .colon
  · rw [if_pos hn]
    refine h.bind (h.advance s) fun _ s₁ h₁ => h.get ?_
    by_cases ht : s₁.next.kind.isTypeName
    · rw [if_pos ht]
      exact h.bind (h.advance s₁) fun _ s₂ h₂ => hcalls _ (.typed hn h₁ ht h₂)
    · rw [if_neg ht]
      exact h.bind (hcalls _ (.noType hn h₁ ht) (.inr rfl)) fun _ _ _ => h.pure _ _
  · rw [if_neg hn]
    exact hcalls _ (.untyped hn)

theorem satisfies_declarations (h : Compositional P) {s : Parser}
    (hcalls : ∀ c, Makes (.declarations s) c → c.Satisfies P) : Satisfies P (.declarations s) := by
  show P s s.declarations
  rw [declarations_eq]
  by_cases hn : s.next.kind = .identifier
  · rw [if_pos hn]
    refine h.bind (h.advance s) fun _ s₁ h₁ => ?_
    refine h.bind (hcalls _ (.declaration hn h₁)) fun d s₂ h₂ => ?_
    cases d with
    | none => exact h.pure _ _
    | some d =>
      refine h.bind (hcalls _ (.declarationBreaks hn h₁ h₂)) fun _ s₃ h₃ => ?_
      exact h.bind (hcalls _ (.declarations hn h₁ h₂ h₃)) fun _ _ _ => h.pure _ _
  · rw [if_neg hn]
    exact h.pure _ s

theorem satisfies_statement (h : Compositional P) {s : Parser}
    (hcalls : ∀ c, Makes (.statement s) c → c.Satisfies P) : Satisfies P (.statement s) := by
  refine h.get ?_
  by_cases hn : s.current.kind = .newline
  · rw [if_pos hn]
    exact h.pure _ s
  rw [if_neg hn]
  by_cases hopens : s.current.kind.opensBlock
  · rw [if_pos hopens]
    exact h.bind (hcalls _ (.block hopens)) fun _ _ _ => h.pure _ _
  rw [if_neg hopens]
  by_cases hplaceholder : s.current.kind.isPlaceholder
  · rw [if_pos hplaceholder]
    exact h.bind (h.notify rfl) fun _ _ _ => h.pure _ _
  · rw [if_neg hplaceholder]
    exact h.bind (hcalls _ (.unexpected hn hopens hplaceholder) (.inl rfl)) fun _ _ _ => h.pure _ _

/-- A call is made of single steps and of the calls that it makes. -/
theorem satisfies_of_makes (h : Compositional P) {c : Call}
    (hcalls : ∀ c', c.Makes c' → c'.Satisfies P) : c.Satisfies P := by
  cases c with
  | drain => trivial
  | advanceWhile test stops s =>
    show P s (Parser.advanceWhile test stops s)
    rw [advanceWhile_eq]
    by_cases ht : test s.current.kind s.next.kind
    · rw [if_pos ht]
      exact h.bind (h.advance s) fun _ s₁ h₁ => hcalls _ (.advanceWhile ht h₁)
    · rw [if_neg ht]
      exact h.pure () s
  | fail kind token s =>
    exact fun htoken => h.bind (h.report kind htoken) fun _ s₁ h₁ => hcalls _ (.synchronize h₁)
  | operators => exact satisfies_operators h hcalls
  | expression => exact satisfies_expression h hcalls
  | declarationValue name typeName s =>
    refine h.get ?_
    by_cases hn : s.next.kind = .symbol .assign
    · rw [if_pos hn]
      refine h.bind (h.advance s) fun _ s₁ h₁ => h.bind (h.advance s₁) fun _ s₂ h₂ => ?_
      refine h.bind (hcalls _ (.value hn h₁ h₂)) fun value s₃ _ => ?_
      cases value <;> exact h.pure _ s₃
    · rw [if_neg hn]
      exact h.bind (hcalls _ (.noValue hn) (.inr rfl)) fun _ _ _ => h.pure _ _
  | declaration => exact satisfies_declaration h hcalls
  | declarations => exact satisfies_declarations h hcalls
  | blockBody keyword s =>
    refine h.bind (hcalls _ .bodyBreaks) fun _ s₁ h₁ => h.get ?_
    by_cases hn : s₁.next.kind = .identifier
    · rw [if_pos hn]
      exact h.bind (hcalls _ (.bodyDeclarations h₁ hn)) fun _ _ _ => h.pure _ _
    · rw [if_neg hn]
      exact h.bind (hcalls _ (.noDeclaration h₁ hn) (.inr rfl)) fun _ _ _ => h.pure _ _
  | block s =>
    refine h.get ?_
    by_cases hn : s.next.kind = .newline
    · rw [if_pos hn]
      exact hcalls _ (.body hn)
    · rw [if_neg hn]
      exact h.bind (h.report _ (.inl rfl)) fun _ s₁ h₁ => hcalls _ (.bodyOnLine hn h₁)
  | statement => exact satisfies_statement h hcalls
  | allStatements s =>
    intro happend
    have happend? : ∀ b s, P s (append? b s)
      | none, s => h.pure () s
      | some b, s => happend b s
    show P s s.allStatements
    rw [allStatements_eq]
    by_cases hc : s.current.kind = .endOfInput
    · rw [if_pos hc]
      exact h.pure () s
    · rw [if_neg hc]
      refine h.bind (hcalls _ (.statement hc)) fun b s₁ h₁ => ?_
      refine h.bind (happend? b s₁) fun _ s₂ h₂ => ?_
      exact h.bind (h.advance s₂) fun _ s₃ h₃ => hcalls _ (.allStatements hc h₁ h₂ h₃) happend
  | program s =>
    exact fun happend => h.bind (hcalls _ .program happend) fun _ s₁ _ =>
      h.get (h.bind (h.notify rfl) fun _ _ _ => h.pure _ _)

end

end Call

namespace Parser

namespace Compositional
variable {P : ∀ {α : Type}, Parser → EStateM.Result LexicalError Parser α → Prop}

/-- What single steps have and sequencing keeps, every call has. -/
theorem satisfies (h : Compositional P) (c : Call) : c.Satisfies P :=
  Call.wellFounded_makes.induction c fun _ ih => Call.satisfies_of_makes h ih

theorem synchronize (h : Compositional P) (s : Parser) : P s (synchronize s) :=
  h.satisfies (.synchronize s)

theorem expression (h : Compositional P) (p : Int) (s : Parser) : P s (expression p s) :=
  h.satisfies (.expression p s)

theorem statement (h : Compositional P) (s : Parser) : P s s.statement :=
  h.satisfies (.statement s)

theorem allStatements (h : Compositional P) (happend : ∀ b s, P s (append b s)) (s : Parser) :
    P s s.allStatements := h.satisfies (.allStatements s) happend

theorem program (h : Compositional P) (happend : ∀ b s, P s (append b s)) (s : Parser) :
    P s s.program := h.satisfies (.program s) happend

end Compositional

/-! ## Walks -/

/-- A computation reads tokens on its way, and is interrupted only where moving on is. -/
def Walks {α : Type} (s : Parser) : EStateM.Result LexicalError Parser α → Prop
  | .ok _ t => ∃ ts, s.cursor.Reads ts t.cursor
  | .error e t => ∃ ts, ∃ u : Parser, s.cursor.Reads ts u.cursor ∧ u.advance = .error e t

theorem compositional_walks : Compositional Walks where
  pure _ s := ⟨[], .refl _⟩
  report _ _ _ _ := ⟨[], .refl _⟩
  notify _ := ⟨[], .refl _⟩
  advance s := by
    cases h : s.advance with
    | ok _ t => exact ⟨_, (Passage.of_advance h).reads⟩
    | error e t => exact ⟨[], s, .refl _, h⟩
  bind := by
    intro α β m f s hm hf
    cases h : m s with
    | ok a t =>
      rw [h] at hm
      rw [bind_of_ok h]
      obtain ⟨ts, hts⟩ := hm
      have hrest := hf a t h
      cases hft : f a t with
      | ok b u =>
        rw [hft] at hrest
        obtain ⟨us, hus⟩ := hrest
        exact ⟨ts ++ us, hts.append hus⟩
      | error e u =>
        rw [hft] at hrest
        obtain ⟨us, v, hus, hv⟩ := hrest
        exact ⟨ts ++ us, v, hts.append hus, hv⟩
    | error e t =>
      rw [h] at hm
      rw [bind_of_error h]
      exact hm

theorem walks_allStatements (s : Parser) : Walks s s.allStatements :=
  compositional_walks.allStatements (fun _ _ => ⟨[], .refl _⟩) s

theorem walks_program (s : Parser) : Walks s s.program :=
  compositional_walks.program (fun _ _ => ⟨[], .refl _⟩) s

end Parser

/-- No forbidden word lies ahead. -/
def Cursor.Clean (c : Cursor) : Prop := ∀ ts d, c.Reads ts d → d.step?.isSome

/-- Where no forbidden word lies ahead nothing is interrupted. -/
theorem Parser.Walks.exists_ok {α : Type} {s : Parser} {r : EStateM.Result LexicalError Parser α}
    (h : Walks s r) (hs : s.cursor.Clean) : ∃ a t, r = .ok a t := by
  cases r with
  | ok a t => exact ⟨a, t, rfl⟩
  | error e t =>
    obtain ⟨ts, u, hu, he⟩ := h
    obtain ⟨d, hd⟩ := Option.isSome_iff_exists.1 (hs ts _ hu)
    rw [advance_of_step hd] at he
    cases he

end SLFront
