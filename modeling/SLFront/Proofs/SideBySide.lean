import SLFront.Proofs.Comparison

/-!
# Programs side by side

Parsers that are side by side stay so: whatever the first one makes of the tokens ahead, the second
one makes the like of it. This is shown routine by routine, along the ways that the first parser
takes: for expressions (`Comparison.Follows`), for declarations and blocks (`Level.declarations`,
`Level.block`) and for whole programs (`Even.allStatements`).

Where the second text goes on behind the end of the first one, the second parser comes to what it
goes on with just as a parser that starts there, provided that the first one has recorded no error
at its end.
-/
namespace SLFront

namespace Parser
variable {s t : Parser}

theorem Passage.errors_subset {us : List Token} {es : List SyntaxError} (h : s.Passage us es t) :
    s.errors ⊆ t.errors := by
  rw [h.errors]
  exact List.subset_append_left _ _

/-- Whatever comes of a task, tokens are read and errors are recorded. -/
theorem Task.Yields.passage {task : Task} {r : Option Expr} (h : task.Yields s r t) :
    ∃ us es, s.Passage us es t := by
  induction h with
  | noPrefix _ hf =>
    obtain ⟨us, hus, -⟩ := fail_eq_ok hf
    exact ⟨_, _, hus⟩
  | identifier _ _ ih => exact ih
  | number _ _ ih => exact ih
  | prefixFailed _ h₁ _ ih =>
    obtain ⟨us, es, h⟩ := ih
    exact ⟨_, _, (Passage.of_advance h₁).trans h⟩
  | prefixOp _ h₁ _ _ ihOperand ih =>
    obtain ⟨us, es, h⟩ := ihOperand
    obtain ⟨vs, fs, h'⟩ := ih
    exact ⟨_, _, ((Passage.of_advance h₁).trans h).trans h'⟩
  | groupFailed _ h₁ h₂ _ ih =>
    obtain ⟨breaks, hbreaks, -⟩ := passage_of_skip h₁ h₂
    obtain ⟨us, es, h⟩ := ih
    exact ⟨_, _, hbreaks.trans h⟩
  | groupOpen _ h₁ h₂ _ _ hf ih =>
    obtain ⟨breaks, hbreaks, -⟩ := passage_of_skip h₁ h₂
    obtain ⟨us, es, h⟩ := ih
    obtain ⟨vs, hvs, -⟩ := fail_eq_ok hf
    exact ⟨_, _, (hbreaks.trans h).trans hvs⟩
  | group _ h₁ h₂ _ _ h₄ _ ihInner ih =>
    obtain ⟨breaks, hbreaks, -⟩ := passage_of_skip h₁ h₂
    obtain ⟨us, es, h⟩ := ihInner
    obtain ⟨vs, fs, h'⟩ := ih
    exact ⟨_, _, ((hbreaks.trans h).trans (Passage.of_advance h₄)).trans h'⟩
  | stop _ ht => exact ⟨_, _, ht⟩
  | infixFailed _ _ h₁ h₂ h₃ _ ih =>
    obtain ⟨breaks, hbreaks, -⟩ := passage_of_skip h₂ h₃
    obtain ⟨us, es, h⟩ := ih
    exact ⟨_, _, ((Passage.of_advance h₁).trans hbreaks).trans h⟩
  | infixOp _ _ h₁ h₂ h₃ _ _ ihOperand ih =>
    obtain ⟨breaks, hbreaks, -⟩ := passage_of_skip h₂ h₃
    obtain ⟨us, es, h⟩ := ihOperand
    obtain ⟨vs, fs, h'⟩ := ih
    exact ⟨_, _, (((Passage.of_advance h₁).trans hbreaks).trans h).trans h'⟩

/-- Where no operator follows that could take it, an operand is complete. -/
theorem exists_operators_of_noneTighter {p : Int} (h : NoneTighter p s) (left : Expr) :
    ∃ t, operators p left s = .ok (some left) t ∧ s.Passage [] [] t := by
  cases hq : s.next.kind.precedence? with
  | none =>
    rw [operators_eq_of_none hq]
    split
    · exact ⟨_, rfl, .of_notify rfl⟩
    · exact ⟨s, rfl, .refl s⟩
  | some q => exact ⟨s, operators_eq_of_le hq (h q hq), .refl s⟩

/-- Line breaks in front of a program are skipped. -/
theorem allStatements_of_skipNewlines (h : skipNewlines s = .ok () t) :
    allStatements s = allStatements t := by
  induction hr : s.remaining using Nat.strongRecOn generalizing s with
  | _ n ih =>
    subst hr
    rw [skipNewlines_eq] at h
    by_cases hn : s.current.kind = .newline
    · have hend : s.current.kind ≠ .endOfInput := by simp [hn]
      rw [if_pos hn] at h
      obtain ⟨_, u, hu, h⟩ := bind_eq_ok_iff.1 h
      have hstatement : statement s = .ok none s := congrFun (if_pos hn) s
      rw [← ih _ (Alive.lt_of_advance (.inl hend) hu) h rfl, allStatements_eq, if_neg hend,
        bind_of_ok hstatement]
      exact bind_of_ok hu
    · rw [if_neg hn] at h
      cases h
      rfl

end Parser

theorem Token.Kind.isTypeName_of_isBoundary {k : Token.Kind} (h : k.isBoundary) :
    k.isTypeName = false := by
  cases ht : k.isTypeName with
  | false => rfl
  | true => simp [isBoundary_of_isTypeName ht] at h

theorem Token.Kind.opening?_of_isBoundary {k : Token.Kind} (h : k.isBoundary) :
    k.opening? = none := by
  cases ho : k.opening? with
  | none => rfl
  | some o => simp [isBoundary_of_opening? ho] at h

theorem Token.Kind.ne_of_isTypeName {k : Token.Kind} (h : k.isTypeName) :
    k ≠ .newline ∧ k ≠ .endOfInput := by
  constructor <;>
  · rintro rfl
    cases h

namespace Comparison
open SLFront.Parser
variable {C : Comparison} {s s' t t' : Parser}

theorem Level.congr (h : C.Level s s') (ht : s.Passage [] [] t) (ht' : s'.Passage [] [] t') :
    C.Level t t' where
  statements := by rw [ht.statements, ht'.statements]; exact h.statements
  errors := by
    rw [ht.errors, ht'.errors, List.append_nil, List.append_nil]
    exact h.errors
  ahead := by rw [← ht.reads.eq_of_nil, ← ht'.reads.eq_of_nil]; exact h.ahead

/-! ## Expressions -/

/-- What the second parser makes of a task that has led the first one from the one state to the
other. -/
def Follows (C : Comparison) : Task → Parser → Option Expr → Parser → Prop
  | .expression p, s, r, t => ∀ s', C.Even s s' → ∃ r' t', expression p s' = .ok r' t' ∧
      Option.Rel (Expr.Alike C.alike) r r' ∧ C.Level t t'
  | .operators p left, s, r, t => ∀ left' s', left.Alike C.alike left' → C.Level s s' →
      ∃ r' t', operators p left' s' = .ok r' t' ∧ Option.Rel (Expr.Alike C.alike) r r' ∧
        C.Level t t'

/-- The token of an opening is the same for both parsers. -/
theorem Even.opening (h : C.Even s s') {o : Opening} (ho : s.current.kind.opening? = some o) :
    C.alike s.current s'.current ∧ s'.current.kind.opening? = some o ∧ C.Level s s' := by
  have hend : s.current.kind ≠ .endOfInput := by
    intro he
    rw [he] at ho
    cases ho
  have halike := h.meets.alike_of_ne hend
  refine ⟨halike, by rw [C.kind_eq halike, ho], h.level (Token.Kind.ne_newline_of_opening? ho) hend⟩

/-- Behind an opening parenthesis both parsers are even again. -/
theorem Even.group (h : C.Even s s') {s₁ s₂ : Parser} (ho : s.current.kind.opening? = some .group)
    (h₁ : s.advance = .ok () s₁) (h₂ : s₁.skipNewlines = .ok () s₂) :
    s'.current.kind.opening? = some .group ∧ ∃ s₁' s₂',
      s'.advance = .ok () s₁' ∧ s₁'.skipNewlines = .ok () s₂' ∧ C.Even s₂ s₂' := by
  obtain ⟨-, ho', hlevel⟩ := h.opening ho
  obtain ⟨s₁', h₁', hs₁⟩ := hlevel.advance h₁
  obtain ⟨s₂', h₂', hs₂⟩ := hs₁.skipNewlines h₂
  exact ⟨ho', s₁', s₂', h₁', h₂', hs₂⟩

/-- An infix operator is the same for both parsers, and behind it they are even. -/
theorem Level.operator (h : C.Level s s') {q : Precedence} {s₁ s₂ s₃ : Parser}
    (hq : s.next.kind.precedence? = some q) (h₁ : s.advance = .ok () s₁)
    (h₂ : s₁.advance = .ok () s₂) (h₃ : s₂.skipNewlines = .ok () s₃) :
    C.alike s.next s'.next ∧ s'.next.kind.precedence? = some q ∧ ∃ s₁' s₂' s₃',
      s'.advance = .ok () s₁' ∧ s₁'.advance = .ok () s₂' ∧ s₂'.skipNewlines = .ok () s₃' ∧
      C.Even s₃ s₃' := by
  have hboundary := Token.Kind.isBoundary_of_precedence? hq
  have hend : s.next.kind ≠ .endOfInput := by
    intro he
    rw [he] at hboundary
    cases hboundary
  have hnewline : s.next.kind ≠ .newline := by
    intro hn
    rw [hn] at hq
    cases hq
  have halike : C.alike s.next s'.next := h.meets.alike_of_ne hend
  rw [← current_of_advance h₁] at hend hnewline
  obtain ⟨s₁', h₁', hs₁⟩ := h.advance h₁
  obtain ⟨s₂', h₂', hs₂⟩ := (hs₁.level hnewline hend).advance h₂
  obtain ⟨s₃', h₃', hs₃⟩ := hs₂.skipNewlines h₃
  exact ⟨halike, by rw [C.kind_eq halike, hq], s₁', s₂', s₃', h₁', h₂', h₃', hs₃⟩

section
variable {p : Int} {q : Precedence} {e left right : Expr} {r : Option Expr}
  {s₁ s₂ s₃ s₄ : Parser}

theorem follows_noPrefix (ho : s.current.kind.opening? = none)
    (hf : fail .noPrefixFound s.current s = .ok () t) (hes : C.NoneAtEnd t.errors) :
    C.Follows (.expression p) s none t := by
  intro s' hs
  obtain ⟨t', ht', hlevel⟩ := hs.fail hf hes
  have ho' : s'.current.kind.opening? = none :=
    (hs.meets.test_eq rfl fun _ => Token.Kind.opening?_of_isBoundary).trans ho
  rw [expression_eq_of_none ho', bind_of_ok ht']
  exact ⟨none, t', rfl, .none, hlevel⟩

theorem follows_identifier (ho : s.current.kind.opening? = some .identifier)
    (rest : C.Follows (.operators p (.identifier s.current)) s r t) :
    C.Follows (.expression p) s r t := by
  intro s' hs
  obtain ⟨halike, ho', hlevel⟩ := hs.opening ho
  rw [expression_eq_of_identifier ho']
  exact rest _ s' (.identifier halike) hlevel

theorem follows_number (ho : s.current.kind.opening? = some .number)
    (rest : C.Follows (.operators p (.number s.current)) s r t) :
    C.Follows (.expression p) s r t := by
  intro s' hs
  obtain ⟨halike, ho', hlevel⟩ := hs.opening ho
  rw [expression_eq_of_number ho']
  exact rest _ s' (.number halike) hlevel

theorem follows_prefixFailed (ho : s.current.kind.opening? = some .operator)
    (h₁ : s.advance = .ok () s₁)
    (operand : C.Follows (.expression Precedence.unary.level) s₁ none t) :
    C.Follows (.expression p) s none t := by
  intro s' hs
  obtain ⟨-, ho', hlevel⟩ := hs.opening ho
  obtain ⟨s₁', h₁', hs₁⟩ := hlevel.advance h₁
  obtain ⟨r', t', ht', hr, hlevel'⟩ := operand s₁' hs₁
  cases hr
  rw [expression_eq_of_operator ho', bind_of_ok h₁', bind_of_ok ht']
  exact ⟨none, t', rfl, .none, hlevel'⟩

theorem follows_prefixOp (ho : s.current.kind.opening? = some .operator)
    (h₁ : s.advance = .ok () s₁)
    (operand : C.Follows (.expression Precedence.unary.level) s₁ (some right) s₂)
    (rest : C.Follows (.operators p (.prefixOp s.current s.current.lexeme right)) s₂ r t) :
    C.Follows (.expression p) s r t := by
  intro s' hs
  obtain ⟨halike, ho', hlevel⟩ := hs.opening ho
  obtain ⟨s₁', h₁', hs₁⟩ := hlevel.advance h₁
  obtain ⟨right', s₂', h₂', hr, hs₂⟩ := operand s₁' hs₁
  cases hr with
  | some hright =>
    rw [expression_eq_of_operator ho', bind_of_ok h₁', bind_of_ok h₂']
    exact rest _ s₂' (.prefixOp halike hright) hs₂

theorem follows_groupFailed (ho : s.current.kind.opening? = some .group)
    (h₁ : s.advance = .ok () s₁) (h₂ : s₁.skipNewlines = .ok () s₂)
    (inner : C.Follows (.expression Precedence.lowest.level) s₂ none t) :
    C.Follows (.expression p) s none t := by
  intro s' hs
  obtain ⟨ho', s₁', s₂', h₁', h₂', hs₂⟩ := hs.group ho h₁ h₂
  obtain ⟨r', t', ht', hr, hlevel'⟩ := inner s₂' hs₂
  cases hr
  rw [expression_eq_of_group ho', bind_of_ok h₁', bind_of_ok h₂', bind_of_ok ht']
  exact ⟨none, t', rfl, .none, hlevel'⟩

theorem follows_groupOpen (ho : s.current.kind.opening? = some .group)
    (h₁ : s.advance = .ok () s₁) (h₂ : s₁.skipNewlines = .ok () s₂)
    (inner : C.Follows (.expression Precedence.lowest.level) s₂ (some e) s₃)
    (hn : s₃.next.kind ≠ .symbol .rightParen)
    (hf : fail .expectedClosingParen s₃.next s₃ = .ok () t) (hes : C.NoneAtEnd t.errors) :
    C.Follows (.expression p) s none t := by
  intro s' hs
  obtain ⟨ho', s₁', s₂', h₁', h₂', hs₂⟩ := hs.group ho h₁ h₂
  obtain ⟨inner', s₃', h₃', hr, hs₃⟩ := inner s₂' hs₂
  obtain ⟨t', ht', hlevel'⟩ := hs₃.fail hs₃.meets hf hes
  have hn' : s₃'.next.kind ≠ .symbol .rightParen := hs₃.meets.kind_ne hn (by simp) rfl
  cases hr with
  | some hinner =>
    rw [expression_eq_of_group ho', bind_of_ok h₁', bind_of_ok h₂', bind_of_ok h₃']
    show ∃ r' u', ((if s₃'.next.kind = _ then _ else _ : Parse (Option Expr)) s₃') = _ ∧ _
    rw [if_neg hn', bind_of_ok ht']
    exact ⟨none, t', rfl, .none, hlevel'⟩

theorem follows_group (ho : s.current.kind.opening? = some .group)
    (h₁ : s.advance = .ok () s₁) (h₂ : s₁.skipNewlines = .ok () s₂)
    (inner : C.Follows (.expression Precedence.lowest.level) s₂ (some e) s₃)
    (hn : s₃.next.kind = .symbol .rightParen) (h₄ : s₃.advance = .ok () s₄)
    (rest : C.Follows (.operators p e) s₄ r t) : C.Follows (.expression p) s r t := by
  intro s' hs
  obtain ⟨ho', s₁', s₂', h₁', h₂', hs₂⟩ := hs.group ho h₁ h₂
  obtain ⟨inner', s₃', h₃', hr, hs₃⟩ := inner s₂' hs₂
  obtain ⟨s₄', h₄', hs₄⟩ := hs₃.advance h₄
  have hn' : s₃'.next.kind = .symbol .rightParen := hs₃.meets.kind_eq hn (by simp)
  have hcurrent : s₄.current.kind = .symbol .rightParen := by rw [current_of_advance h₄, hn]
  cases hr with
  | some hinner =>
    rw [expression_eq_of_group ho', bind_of_ok h₁', bind_of_ok h₂', bind_of_ok h₃']
    show ∃ r' u', ((if s₃'.next.kind = _ then _ else _ : Parse (Option Expr)) s₃') = _ ∧ _
    rw [if_pos hn', bind_of_ok h₄']
    exact rest _ s₄' hinner (hs₄.level (by simp [hcurrent]) (by simp [hcurrent]))

theorem follows_stop (hs : NoneTighter p s) (ht : s.Passage [] [] t) :
    C.Follows (.operators p left) s (some left) t := by
  intro left' s' hleft hlevel
  have hnone : NoneTighter p s' := by
    intro q hq
    rw [hlevel.meets.test_eq rfl fun _ => Token.Kind.precedence?_of_isBoundary] at hq
    exact hs q hq
  obtain ⟨t', ht', hpass⟩ := exists_operators_of_noneTighter hnone left'
  exact ⟨some left', t', ht', .some hleft, hlevel.congr ht hpass⟩

theorem follows_infixFailed (hq : s.next.kind.precedence? = some q) (hp : p < q.level)
    (h₁ : s.advance = .ok () s₁) (h₂ : s₁.advance = .ok () s₂) (h₃ : s₂.skipNewlines = .ok () s₃)
    (operand : C.Follows (.expression q.level) s₃ none t) :
    C.Follows (.operators p left) s none t := by
  intro left' s' hleft hlevel
  obtain ⟨-, hq', s₁', s₂', s₃', h₁', h₂', h₃', hs₃⟩ := hlevel.operator hq h₁ h₂ h₃
  obtain ⟨r', t', ht', hr, hlevel'⟩ := operand s₃' hs₃
  cases hr
  rw [operators_eq_of_lt hq' hp, bind_of_ok h₁', bind_of_ok h₂', bind_of_ok h₃', bind_of_ok ht']
  exact ⟨none, t', rfl, .none, hlevel'⟩

theorem follows_infixOp (hq : s.next.kind.precedence? = some q) (hp : p < q.level)
    (h₁ : s.advance = .ok () s₁) (h₂ : s₁.advance = .ok () s₂) (h₃ : s₂.skipNewlines = .ok () s₃)
    (operand : C.Follows (.expression q.level) s₃ (some right) s₄)
    (rest : C.Follows (.operators p (.infixOp s.next s.next.lexeme left right)) s₄ r t) :
    C.Follows (.operators p left) s r t := by
  intro left' s' hleft hlevel
  obtain ⟨halike, hq', s₁', s₂', s₃', h₁', h₂', h₃', hs₃⟩ := hlevel.operator hq h₁ h₂ h₃
  obtain ⟨right', s₄', h₄', hr, hs₄⟩ := operand s₃' hs₃
  cases hr with
  | some hright =>
    rw [operators_eq_of_lt hq' hp, bind_of_ok h₁', bind_of_ok h₂', bind_of_ok h₃', bind_of_ok h₄']
    exact rest _ s₄' (.infixOp halike hleft hright) hs₄

end

/-- What has led the first parser along a run, the second one follows, if the first has recorded no
error at its end. -/
theorem follows_of_yields {task : Task} {r : Option Expr} (h : task.Yields s r t)
    (hes : C.NoneAtEnd t.errors) : C.Follows task s r t := by
  induction h with
  | noPrefix ho hf => exact follows_noPrefix ho hf hes
  | identifier ho _ ih => exact follows_identifier ho (ih hes)
  | number ho _ ih => exact follows_number ho (ih hes)
  | prefixFailed ho h₁ _ ih => exact follows_prefixFailed ho h₁ (ih hes)
  | prefixOp ho h₁ _ rest ihOperand ih =>
    obtain ⟨us, es, hrest⟩ := rest.passage
    exact follows_prefixOp ho h₁ (ihOperand (hes.mono hrest.errors_subset)) (ih hes)
  | groupFailed ho h₁ h₂ _ ih => exact follows_groupFailed ho h₁ h₂ (ih hes)
  | groupOpen ho h₁ h₂ _ hn hf ih =>
    obtain ⟨us, hfail, -⟩ := fail_eq_ok hf
    exact follows_groupOpen ho h₁ h₂ (ih (hes.mono hfail.errors_subset)) hn hf hes
  | group ho h₁ h₂ _ hn h₄ rest ihInner ih =>
    obtain ⟨us, es, hrest⟩ := rest.passage
    have hpass := (Passage.of_advance h₄).trans hrest
    exact follows_group ho h₁ h₂ (ihInner (hes.mono hpass.errors_subset)) hn h₄ (ih hes)
  | stop hs ht => exact follows_stop hs ht
  | infixFailed hq hp h₁ h₂ h₃ _ ih => exact follows_infixFailed hq hp h₁ h₂ h₃ (ih hes)
  | infixOp hq hp h₁ h₂ h₃ _ rest ihOperand ih =>
    obtain ⟨us, es, hrest⟩ := rest.passage
    exact follows_infixOp hq hp h₁ h₂ h₃ (ihOperand (hes.mono hrest.errors_subset)) (ih hes)

/-! ## Declarations and blocks -/

theorem Even.expression (h : C.Even s s') {p : Int} {r : Option Expr}
    (hr : expression p s = .ok r t) (hes : C.NoneAtEnd t.errors) :
    ∃ r' t', Parser.expression p s' = .ok r' t' ∧ Option.Rel (Expr.Alike C.alike) r r' ∧
      C.Level t t' :=
  follows_of_yields (yields_of_eq_ok.1 p s r t hr) hes s' h

section
variable {name name' : Token} {typeName typeName' : Option Token}

theorem Level.declarationValue (h : C.Level s s') (hname : C.alike name name')
    (htype : Option.Rel C.alike typeName typeName') {d : Option Declaration}
    (hd : declarationValue name typeName s = .ok d t) (hes : C.NoneAtEnd t.errors) :
    ∃ d' t', Parser.declarationValue name' typeName' s' = .ok d' t' ∧
      Option.Rel (Declaration.Alike C.alike) d d' ∧ C.Level t t' := by
  obtain ⟨_, _, hget, hd⟩ := bind_eq_ok_iff.1 hd
  cases hget
  show ∃ d' t', (if s'.next.kind = _ then _ else _ : Parse (Option Declaration)) s' = _ ∧ _
  by_cases ha : s.next.kind = .symbol .assign
  · rw [if_pos ha] at hd
    rw [if_pos (h.meets.kind_eq ha (by simp))]
    obtain ⟨_, s₁, h₁, hd⟩ := bind_eq_ok_iff.1 hd
    obtain ⟨_, s₂, h₂, hd⟩ := bind_eq_ok_iff.1 hd
    obtain ⟨value, s₃, h₃, hd⟩ := bind_eq_ok_iff.1 hd
    obtain ⟨s₁', h₁', hs₁⟩ := h.advance h₁
    have hcurrent : s₁.current.kind = .symbol .assign := by rw [current_of_advance h₁, ha]
    obtain ⟨s₂', h₂', hs₂⟩ := (hs₁.level (by simp [hcurrent]) (by simp [hcurrent])).advance h₂
    obtain rfl : s₃ = t := by cases value <;> cases hd <;> rfl
    obtain ⟨value', s₃', h₃', hvalue, hs₃⟩ := hs₂.expression h₃ hes
    rw [bind_of_ok h₁', bind_of_ok h₂', bind_of_ok h₃']
    cases hvalue with
    | none =>
      cases hd
      exact ⟨none, s₃', rfl, .none, hs₃⟩
    | some hvalue =>
      cases hd
      exact ⟨_, s₃', rfl, .some ⟨hname, htype, .some hvalue⟩, hs₃⟩
  · rw [if_neg ha] at hd
    rw [if_neg (h.meets.kind_ne ha (by simp) rfl)]
    obtain ⟨_, s₁, hf, hd⟩ := bind_eq_ok_iff.1 hd
    cases hd
    obtain ⟨t', ht', hlevel⟩ := h.fail h.meets hf hes
    rw [bind_of_ok ht']
    exact ⟨none, t', rfl, .none, hlevel⟩

end

theorem Level.declaration (h : C.Level s s') (hcurrent : C.alike s.current s'.current)
    {d : Option Declaration} (hd : s.declaration = .ok d t) (hes : C.NoneAtEnd t.errors) :
    ∃ d' t', s'.declaration = .ok d' t' ∧ Option.Rel (Declaration.Alike C.alike) d d' ∧
      C.Level t t' := by
  obtain ⟨_, _, hget, hd⟩ := bind_eq_ok_iff.1 hd
  cases hget
  show ∃ d' t', (if s'.next.kind = _ then _ else _ : Parse (Option Declaration)) s' = _ ∧ _
  by_cases hc : s.next.kind = .symbol .colon
  · rw [if_pos hc] at hd
    rw [if_pos (h.meets.kind_eq hc (by simp))]
    obtain ⟨_, s₁, h₁, hd⟩ := bind_eq_ok_iff.1 hd
    obtain ⟨_, _, hget, hd⟩ := bind_eq_ok_iff.1 hd
    cases hget
    obtain ⟨s₁', h₁', hs₁⟩ := h.advance h₁
    have hcolon : s₁.current.kind = .symbol .colon := by rw [current_of_advance h₁, hc]
    have hlevel := hs₁.level (by simp [hcolon]) (by simp [hcolon])
    have htype : s₁'.next.kind.isTypeName = s₁.next.kind.isTypeName :=
      hlevel.meets.test_eq rfl fun _ => Token.Kind.isTypeName_of_isBoundary
    rw [bind_of_ok h₁']
    show ∃ d' t',
      (if s₁'.next.kind.isTypeName then _ else _ : Parse (Option Declaration)) s₁' = _ ∧ _
    rw [htype]
    by_cases ht : s₁.next.kind.isTypeName
    · rw [if_pos ht] at hd ⊢
      obtain ⟨_, s₂, h₂, hd⟩ := bind_eq_ok_iff.1 hd
      obtain ⟨s₂', h₂', hs₂⟩ := hlevel.advance h₂
      obtain ⟨hnewline, hend⟩ := Token.Kind.ne_of_isTypeName ht
      have halike := hlevel.meets.alike_of_ne hend
      rw [← current_of_advance h₂] at hnewline hend
      rw [bind_of_ok h₂']
      exact (hs₂.level hnewline hend).declarationValue hcurrent (.some halike) hd hes
    · rw [if_neg ht] at hd ⊢
      obtain ⟨_, s₂, hf, hd⟩ := bind_eq_ok_iff.1 hd
      cases hd
      obtain ⟨t', ht', hlevel'⟩ := hlevel.fail hlevel.meets hf hes
      rw [bind_of_ok ht']
      exact ⟨none, t', rfl, .none, hlevel'⟩
  · rw [if_neg hc] at hd
    rw [if_neg (h.meets.kind_ne hc (by simp) rfl)]
    exact h.declarationValue hcurrent .none hd hes

theorem Level.declarations (h : C.Level s s') {ds : List Declaration}
    (hds : s.declarations = .ok ds t) (hes : C.NoneAtEnd t.errors) :
    ∃ ds' t', s'.declarations = .ok ds' t' ∧ List.Forall₂ (Declaration.Alike C.alike) ds ds' ∧
      C.Level t t' := by
  induction hr : s.remaining using Nat.strongRecOn generalizing s s' ds with
  | _ n ih =>
    subst hr
    rw [declarations_eq s']
    obtain ⟨hn, rfl, rfl⟩ | ⟨hn, u, hu, hrest⟩ := declarations_eq_ok hds
    · rw [if_neg (h.meets.kind_ne hn (by simp) rfl)]
      exact ⟨[], s', rfl, .nil, h⟩
    · rw [if_pos (h.meets.kind_eq hn (by simp))]
      obtain ⟨u', hu', heven⟩ := h.advance hu
      have hname : u.current.kind = .identifier := by rw [current_of_advance hu, hn]
      have hlevel := heven.level (by simp [hname]) (by simp [hname])
      have halike := heven.meets.alike_of_ne (by simp [hname])
      rw [bind_of_ok hu']
      rcases hrest with ⟨rfl, hnone⟩ | ⟨d, ds, v, w, rfl, hd, hw, lt, hds⟩
      · obtain ⟨d', t', ht', hsome, hlevel'⟩ := hlevel.declaration halike hnone hes
        cases hsome
        rw [bind_of_ok ht']
        exact ⟨[], t', rfl, .nil, hlevel'⟩
      · obtain ⟨us, es, hpass, -⟩ := (yieldsDeclarations_of_eq_ok hds).passage
        obtain ⟨breaks, hbreaks, -⟩ := consumeNewlines_eq_ok hw
        have hes' := hes.mono (hbreaks.trans hpass).errors_subset
        obtain ⟨d', v', hv', hsome, hlevel'⟩ := hlevel.declaration halike hd hes'
        obtain ⟨w', hw', hlevel'⟩ := hlevel'.consumeNewlines hw
        obtain ⟨ds', t', ht', hds', hlevel'⟩ := ih _ lt hlevel' hds rfl
        cases hsome with
        | some halike' =>
          rw [bind_of_ok hv']
          show ∃ ds' t', (Parser.consumeNewlines >>= _) v' = _ ∧ _
          rw [bind_of_ok hw', bind_of_ok ht']
          exact ⟨_, t', rfl, .cons halike' hds', hlevel'⟩

theorem Level.blockBody (h : C.Level s s') {keyword keyword' : Token}
    (hkeyword : C.alike keyword keyword') {b : Block} (hb : blockBody keyword s = .ok b t)
    (hes : C.NoneAtEnd t.errors) :
    ∃ b' t', Parser.blockBody keyword' s' = .ok b' t' ∧ b.Alike C.alike b' ∧ C.Level t t' := by
  obtain ⟨_, u, hu, hb⟩ := bind_eq_ok_iff.1 hb
  obtain ⟨u', hu', hlevel⟩ := h.consumeNewlines hu
  obtain ⟨_, _, hget, hb⟩ := bind_eq_ok_iff.1 hb
  cases hget
  rw [Parser.blockBody, bind_of_ok hu']
  show ∃ b' t', (if u'.next.kind = _ then _ else _ : Parse Block) u' = _ ∧ _
  by_cases hn : u.next.kind = .identifier
  · rw [if_pos hn] at hb
    rw [if_pos (hlevel.meets.kind_eq hn (by simp))]
    obtain ⟨ds, _, hds, hb⟩ := bind_eq_ok_iff.1 hb
    cases hb
    obtain ⟨ds', t', ht', halike, hlevel'⟩ := hlevel.declarations hds hes
    rw [bind_of_ok ht']
    exact ⟨_, t', rfl, ⟨hkeyword, halike⟩, hlevel'⟩
  · rw [if_neg hn] at hb
    rw [if_neg (hlevel.meets.kind_ne hn (by simp) rfl)]
    obtain ⟨_, _, hf, hb⟩ := bind_eq_ok_iff.1 hb
    cases hb
    obtain ⟨t', ht', hlevel'⟩ := hlevel.fail hlevel.meets hf hes
    rw [bind_of_ok ht']
    exact ⟨_, t', rfl, ⟨hkeyword, .nil⟩, hlevel'⟩

/-- A block that ends with the first text is an error there. -/
theorem not_noneAtEnd_of_blockBody {keyword : Token} {b : Block} (hgo : C.beyond.isSome)
    (he : s.next.kind = .endOfInput) (hb : blockBody keyword s = .ok b t) :
    ¬C.NoneAtEnd t.errors := by
  intro hes
  have hskip : consumeNewlines s = .ok () s :=
    (advanceWhile_eq _ _ s).trans (if_neg (by simp [he]))
  rw [Parser.blockBody, bind_of_ok hskip] at hb
  obtain ⟨_, _, hget, hb⟩ := bind_eq_ok_iff.1 hb
  cases hget
  rw [if_neg (by simp [he])] at hb
  obtain ⟨_, _, hf, hb⟩ := bind_eq_ok_iff.1 hb
  cases hb
  exact hes hgo _ (mem_errors_of_fail hf) he

theorem Level.block (h : C.Level s s') (hcurrent : C.alike s.current s'.current) {b : Block}
    (hb : s.block = .ok b t) (hes : C.NoneAtEnd t.errors) :
    ∃ b' t', s'.block = .ok b' t' ∧ b.Alike C.alike b' ∧ C.Level t t' := by
  obtain ⟨_, _, hget, hb⟩ := bind_eq_ok_iff.1 hb
  cases hget
  show ∃ b' t', (if s'.next.kind = _ then _ else _ : Parse Block) s' = _ ∧ _
  by_cases hn : s.next.kind = .newline
  · rw [if_pos hn] at hb
    rw [if_pos (h.meets.kind_eq hn (by simp))]
    exact h.blockBody hcurrent hb hes
  · rw [if_neg hn] at hb
    obtain ⟨_, u, hu, hb⟩ := bind_eq_ok_iff.1 hb
    obtain ⟨u', hu', hlevel⟩ := h.report hcurrent hu
    have hnext : u.next = s.next := (Passage.of_report hu).next_eq
    have hn' : s'.next.kind ≠ .newline := by
      cases h.meets with
      | alike halike => rwa [C.kind_eq halike]
      | goesOn hgo he _ => exact absurd hes (not_noneAtEnd_of_blockBody hgo (hnext ▸ he) hb)
    rw [if_neg hn', bind_of_ok hu']
    exact hlevel.blockBody hcurrent hb hes

/-! ## Programs -/

theorem Level.statement (h : C.Level s s') (hcurrent : C.alike s.current s'.current)
    (hn : s.current.kind ≠ .newline) {b : Option Block}
    (hb : s.statement = .ok b t) (hes : C.NoneAtEnd t.errors) :
    ∃ b' t', s'.statement = .ok b' t' ∧ Option.Rel (Block.Alike C.alike) b b' ∧ C.Level t t' := by
  obtain ⟨_, _, hget, hb⟩ := bind_eq_ok_iff.1 hb
  cases hget
  show ∃ b' t', (if s'.current.kind = _ then _ else _ : Parse (Option Block)) s' = _ ∧ _
  rw [if_neg hn] at hb
  rw [C.kind_eq hcurrent, if_neg hn]
  by_cases hopens : s.current.kind.opensBlock
  · rw [if_pos hopens] at hb ⊢
    obtain ⟨c, _, hc, hb⟩ := bind_eq_ok_iff.1 hb
    cases hb
    obtain ⟨c', t', ht', halike, hlevel⟩ := h.block hcurrent hc hes
    rw [bind_of_ok ht']
    exact ⟨_, t', rfl, .some halike, hlevel⟩
  rw [if_neg hopens] at hb ⊢
  by_cases hplaceholder : s.current.kind.isPlaceholder
  · rw [if_pos hplaceholder] at hb ⊢
    obtain ⟨_, _, hu, hb⟩ := bind_eq_ok_iff.1 hb
    cases hb
    exact ⟨none, _, rfl, .none, h.congr (.of_notify hu) (.of_notify rfl)⟩
  · rw [if_neg hplaceholder] at hb ⊢
    obtain ⟨_, _, hf, hb⟩ := bind_eq_ok_iff.1 hb
    cases hb
    obtain ⟨t', ht', hlevel⟩ := h.fail (.alike hcurrent) hf hes
    rw [bind_of_ok ht']
    exact ⟨none, t', rfl, .none, hlevel⟩

theorem Level.append? (h : C.Level s s') {b b' : Option Block}
    (hb : Option.Rel (Block.Alike C.alike) b b') (hs : append? b s = .ok () t) :
    ∃ t', Parser.append? b' s' = .ok () t' ∧ C.Level t t' := by
  cases hb with
  | none =>
    cases hs
    exact ⟨s', rfl, h⟩
  | some hb => exact h.append hb hs

/-- Parsers that are side by side record the like up to the end of the first text. Then the second
one is at the end of its own, or goes on with what comes behind. -/
theorem Even.allStatements (h : C.Even s s') (ht : s.allStatements = .ok () t)
    (hes : C.NoneAtEnd t.errors) :
    ∃ t', s'.allStatements = t'.allStatements ∧ t.current.kind = .endOfInput ∧ C.Even t t' := by
  induction hr : s.remaining using Nat.strongRecOn generalizing s s' with
  | _ n ih =>
    subst hr
    obtain ⟨ts, ts', hts, -⟩ := h.upcoming
    obtain ⟨d, hu, -⟩ := skipNewlines_of_upcoming hts
    obtain ⟨u', hu', heven⟩ := h.skipNewlines hu
    have le := settles_skipNewlines.le_of_eq_ok hu
    obtain ⟨-, -, -, -, -, hn⟩ := skipNewlines_eq_ok hu
    rw [allStatements_of_skipNewlines hu] at ht
    rw [allStatements_of_skipNewlines hu']
    generalize s.moved d = u at *
    obtain ⟨hend, rfl⟩ | ⟨hend, b, v, v', w, hv, hv', hw, lt, ht⟩ := allStatements_eq_ok ht
    · exact ⟨u', rfl, hend, heven⟩
    · have halike := heven.meets.alike_of_ne hend
      have hend' : u'.current.kind ≠ .endOfInput := by rwa [C.kind_eq halike]
      obtain ⟨bs, hbs⟩ := yieldsBlocks_of_eq_ok ht
      obtain ⟨us, es, -, -, herrors, -⟩ := hbs.reads
      have hes' : C.NoneAtEnd v.errors := by
        refine hes.mono ?_
        rw [herrors, (Passage.of_advance hw).errors, (append?_eq_ok hv').2.2, List.append_nil]
        exact List.subset_append_left _ _
      obtain ⟨b', x, hx, hb, hlevel⟩ := (heven.level hn hend).statement halike hn hv hes'
      obtain ⟨x', hx', hlevel⟩ := hlevel.append? hb hv'
      obtain ⟨y, hy, heven⟩ := hlevel.advance hw
      obtain ⟨t', ht', hrest⟩ := ih _ (by omega) heven ht rfl
      refine ⟨t', ?_, hrest⟩
      rw [allStatements_eq u', if_neg hend', bind_of_ok hx]
      show (Parser.append? b' >>= _) x = _
      rw [bind_of_ok hx', ← ht']
      exact bind_of_ok hy

/-- Where the second text does not go on, the second parser comes to the end with the first one. -/
theorem Even.exists_allStatements (h : C.Even s s') (ht : s.allStatements = .ok () t)
    (hgo : C.beyond = none) : ∃ t', s'.allStatements = .ok () t' ∧ C.Recorded t t' := by
  have hes : C.NoneAtEnd t.errors := fun hsome => by simp [hgo] at hsome
  obtain ⟨t', ht', hend, heven⟩ := h.allStatements ht hes
  have hend' : t'.current.kind = .endOfInput := by
    cases heven.meets with
    | alike halike => rw [C.kind_eq halike, hend]
    | goesOn hsome _ _ => simp [hgo] at hsome
  refine ⟨t', ?_, heven.toRecorded⟩
  rw [ht', allStatements_eq, if_pos hend']
  rfl

/-! ## From like tokens to like records -/

/-- Tokens that are alike one by one are beside each other. -/
theorem beside_of_forall₂ {c : Cursor} {ts ts' : List Token} (hts : c.Upcoming ts)
    (h : List.Forall₂ C.alike ts ts') : C.Beside ts ts' := by
  induction hts generalizing ts' with
  | last hc _ _ =>
    cases h with
    | cons halike hnil =>
      cases hnil
      exact .ended halike hc
  | @cons c d ts _ _ _ ih =>
    cases h with
    | cons halike hrest => exact .cons halike (ih hrest)

/-- If like tokens have the same lexeme and go over to the same token, the records go over to the
same records. -/
theorem Recorded.map_eq (h : C.Recorded s s') {f g : Token → Token}
    (hmap : ∀ t t', C.alike t t' → f t = g t')
    (hlexeme : ∀ t t', C.alike t t' → t.lexeme = t'.lexeme) :
    ∃ bs bs' es es',
      s.statements = C.first.statements ++ bs ∧ s.errors = C.first.errors ++ es ∧
      s'.statements = C.second.statements ++ bs' ∧ s'.errors = C.second.errors ++ es' ∧
      bs.map (Block.mapTokens f) = bs'.map (Block.mapTokens g) ∧
      es.map (SyntaxError.mapToken f) = es'.map (SyntaxError.mapToken g) := by
  obtain ⟨bs, bs', hbs, hbs', hblocks⟩ := h.statements
  obtain ⟨es, es', hes, hes', herrors⟩ := h.errors
  exact ⟨bs, bs', es, es', hbs, hes, hbs', hes',
    map_eq_map_of_forall₂ hblocks fun _ _ hb => hb.mapTokens_eq hmap hlexeme,
    map_eq_map_of_forall₂ herrors fun _ _ he => he.mapToken_eq hmap⟩

end Comparison

namespace Parser
variable {s s' t : Parser} {ts : List Token} {bs : List Block} {es : List SyntaxError}

theorem exists_skip (hs : s.cursor.Upcoming ts) :
    ∃ d, allStatements s = allStatements (s.moved d) ∧
      d.Upcoming (ts.dropWhile Token.isLineBreak) := by
  obtain ⟨d, hskip, hd⟩ := skipNewlines_of_upcoming hs
  exact ⟨d, allStatements_of_skipNewlines hskip, hd⟩

/-- Parsers in front of the same tokens at other places record the same at these places. -/
theorem exists_allStatements_of_map {f : Token → Token} (hf : ∀ t, (f t).unplaced = t.unplaced)
    (hs : s.cursor.Upcoming ts) (hs' : s'.cursor.Upcoming (ts.map f))
    (ht : allStatements s = .ok () t) (hstatements : t.statements = s.statements ++ bs)
    (herrors : t.errors = s.errors ++ es) :
    ∃ t', allStatements s' = .ok () t' ∧
      t'.statements = s'.statements ++ bs.map (Block.mapTokens f) ∧
      t'.errors = s'.errors ++ es.map (SyntaxError.mapToken f) := by
  let C : Comparison :=
    { alike := fun t t' => f t = t'
      kind_eq := fun {t t'} h => h ▸ Token.kind_eq_of_unplaced (hf t)
      first := s
      second := s' }
  have halike : List.Forall₂ C.alike ts (ts.map f) := by
    rw [List.forall₂_map_right_iff, List.forall₂_same]
    exact fun _ _ => rfl
  have heven : C.Even s s' :=
    ⟨C.recorded_start, ts, ts.map f, hs, hs', Comparison.beside_of_forall₂ hs halike⟩
  obtain ⟨t', ht', hrecorded⟩ := heven.exists_allStatements ht rfl
  obtain ⟨cs, cs', fs, fs', hcs, hfs, hcs', hfs', hblocks, hmap⟩ :=
    hrecorded.map_eq (f := f) (g := id) (fun _ _ h => h)
      fun t t' h => h ▸ (Token.lexeme_eq_of_unplaced (hf t)).symm
  obtain rfl := List.append_cancel_left (hstatements.symm.trans hcs)
  obtain rfl := List.append_cancel_left (herrors.symm.trans hfs)
  rw [Block.map_mapTokens_id] at hblocks
  rw [SyntaxError.map_mapToken_id] at hmap
  exact ⟨t', ht', by rw [hcs', hblocks], by rw [hfs', hmap]⟩

end Parser
end SLFront
