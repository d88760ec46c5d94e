import SLFront.Parser.Program

/-!
# Spellings of syntax trees

Which tokens spell which tree: the grammar of the language with the trees that it gives. An infix
operator stands without parentheses only where the place takes operators of its precedence: as a
left operand it has to bind at least as tightly as the operator next to it, as a right operand more
tightly, and as the operand of a prefix operator it cannot stand. Parentheses may stand anywhere,
and line breaks may follow an infix operator and an opening parenthesis.

The relations say nothing of how tokens are read. That the parser reads a spelling as its tree, and
reads nothing else without an error, is shown elsewhere.
-/
namespace SLFront

/-- `e.SpelledBy p ts`: the tokens spell the expression where infix operators that do not bind more
tightly than `p` need parentheses. -/
inductive Expr.SpelledBy : Int → Expr → List Token → Prop
  | identifier {p : Int} {t : Token} (ht : t.kind = .identifier) : SpelledBy p (.identifier t) [t]
  | number {p : Int} {t : Token} (ht : t.kind = .number) : SpelledBy p (.number t) [t]
  | prefixOp {p : Int} {t : Token} {e : Expr} {ts : List Token}
    (ht : t.kind.opening? = some .operator) (operand : SpelledBy Precedence.unary.level e ts) :
    SpelledBy p (.prefixOp t t.lexeme e) (t :: ts)
  | group {p : Int} {l r : Token} {e : Expr} {breaks ts : List Token}
    (hl : l.kind = .symbol .leftParen) (hbreaks : ∀ t ∈ breaks, t.kind = .newline)
    (inner : SpelledBy Precedence.lowest.level e ts) (hr : r.kind = .symbol .rightParen) :
    SpelledBy p e (l :: breaks ++ ts ++ [r])
  | infixOp {p : Int} {q : Precedence} {t : Token} {l r : Expr} {ls breaks rs : List Token}
    (ht : t.kind.precedence? = some q) (hp : p < q.level)
    (left : SpelledBy (q.level - 1) l ls) (hbreaks : ∀ t ∈ breaks, t.kind = .newline)
    (right : SpelledBy q.level r rs) :
    SpelledBy p (.infixOp t t.lexeme l r) (ls ++ t :: breaks ++ rs)

/-- The tokens spell the declaration: a name, perhaps a colon and a type, an equal sign, a value. -/
inductive Declaration.SpelledBy : Declaration → List Token → Prop
  | untyped {name assign : Token} {e : Expr} {ts : List Token} (hn : name.kind = .identifier)
    (ha : assign.kind = .symbol .assign) (value : e.SpelledBy Precedence.lowest.level ts) :
    SpelledBy { name, value := some e } (name :: assign :: ts)
  | typed {name colon typeName assign : Token} {e : Expr} {ts : List Token}
    (hn : name.kind = .identifier) (hc : colon.kind = .symbol .colon)
    (ht : typeName.kind.isTypeName) (ha : assign.kind = .symbol .assign)
    (value : e.SpelledBy Precedence.lowest.level ts) :
    SpelledBy { name, typeName := some typeName, value := some e }
      (name :: colon :: typeName :: assign :: ts)

/-- The tokens spell the declarations, with any line breaks between one and the next. -/
inductive Declaration.AllSpelledBy : List Declaration → List Token → Prop
  | single {d : Declaration} {ts : List Token} (h : d.SpelledBy ts) : AllSpelledBy [d] ts
  | cons {d : Declaration} {ds : List Declaration} {ts breaks us : List Token}
    (h : d.SpelledBy ts) (hbreaks : ∀ t ∈ breaks, t.kind = .newline) (rest : AllSpelledBy ds us) :
    AllSpelledBy (d :: ds) (ts ++ breaks ++ us)

/-- The tokens spell the block: its keyword, at least one line break, and its declarations. -/
structure Block.SpelledBy (b : Block) (ts : List Token) : Prop where
  keyword : b.keyword.kind.opensBlock
  body : ∃ breaks us, ts = b.keyword :: breaks ++ us ∧ breaks ≠ [] ∧
    (∀ t ∈ breaks, t.kind = .newline) ∧ Declaration.AllSpelledBy b.declarations us

/-- The tokens spell the blocks of a program. Line breaks and the statements that are not parsed
may stand between them. -/
inductive Block.AllSpelledBy : List Block → List Token → Prop
  | nil : AllSpelledBy [] []
  | skip {t : Token} {bs : List Block} {ts : List Token}
    (ht : t.kind = .newline ∨ t.kind.isPlaceholder) (rest : AllSpelledBy bs ts) :
    AllSpelledBy bs (t :: ts)
  | cons {b : Block} {bs : List Block} {ts us : List Token} (h : b.SpelledBy ts)
    (rest : AllSpelledBy bs us) : AllSpelledBy (b :: bs) (ts ++ us)

/-! ## Tokens inside a spelling -/

namespace Token.Kind
variable {k : Token.Kind}

theorem opening?_eq_identifier (h : k.opening? = some .identifier) : k = .identifier := by
  revert h
  unfold opening?
  split <;> simp

theorem opening?_eq_number (h : k.opening? = some .number) : k = .number := by
  revert h
  unfold opening?
  split <;> simp

theorem opening?_eq_group (h : k.opening? = some .group) : k = .symbol .leftParen := by
  revert h
  unfold opening?
  split <;> simp

theorem opening?_eq_operator (h : k.opening? = some .operator) :
    k = .symbol .minus ∨ k = .keyword .not := by
  revert h
  unfold opening?
  split <;> simp

theorem ne_newline_of_opening? {o : Opening} (h : k.opening? = some o) : k ≠ .newline := by
  rintro rfl
  cases h

/-- The levels of the infix operators. -/
theorem level_of_precedence? {q : Precedence} (h : k.precedence? = some q) :
    2 ≤ q.level ∧ q.level ≤ 4 := by
  rcases k with _ | _ | _ | _ | _ | k | s
  case symbol => cases s <;> cases h <;> decide
  all_goals cases h

/-- Recovery stops in front of the end of input and of the statements. -/
theorem isBoundary_iff : k.isBoundary ↔ k = .endOfInput ∨ k.opensBlock ∨ k.isPlaceholder := by
  cases k <;> simp [opensBlock, isPlaceholder, isBoundary, startsStatement, Keyword.startsStatement]

theorem ne_of_opensBlock (h : k.opensBlock) : k ≠ .newline ∧ k ≠ .endOfInput := by
  constructor <;>
  · rintro rfl
    cases h

theorem ne_newline_of_isPlaceholder (h : k.isPlaceholder) :
    k ≠ .newline ∧ k.opensBlock = false := by
  rcases k with _ | _ | _ | _ | _ | k | s
  case keyword =>
    cases k <;> simp_all [isPlaceholder, opensBlock, Keyword.isPlaceholder, Keyword.opensBlock]
  all_goals cases h

theorem isBoundary_of_opening? {o : Opening} (h : k.opening? = some o) : k.isBoundary = false := by
  rcases k with _ | _ | _ | _ | _ | k | s
  case keyword => cases k <;> first | rfl | cases h
  all_goals first | rfl | cases h

theorem isBoundary_of_precedence? {q : Precedence} (h : k.precedence? = some q) :
    k.isBoundary = false := by
  cases k <;> first | rfl | cases h

theorem isBoundary_of_isTypeName (h : k.isTypeName) : k.isBoundary = false := by
  rcases k with _ | _ | _ | _ | _ | k | s
  case keyword => cases k <;> first | rfl | cases h
  all_goals first | rfl | cases h

theorem opensBlock_of_isBoundary_eq_false (h : k.isBoundary = false) : k.opensBlock = false := by
  refine Bool.eq_false_iff.2 fun hopens => ?_
  simp [isBoundary_iff.2 (.inr (.inl hopens))] at h

/-- A token at which recovery stops goes on with nothing that is being read. -/
theorem precedence?_of_isBoundary (h : k.isBoundary) : k.precedence? = none := by
  cases hq : k.precedence? with
  | none => rfl
  | some q => simp [isBoundary_of_precedence? hq] at h

theorem ne_newline_of_isBoundary (h : k.isBoundary) : k ≠ .newline := by
  rintro rfl
  cases h

theorem ne_identifier_of_isBoundary (h : k.isBoundary) : k ≠ .identifier := by
  rintro rfl
  cases h

end Token.Kind

/-- Recovery stops at the end of input, so where it does not stop there is none. -/
theorem ne_endOfInput_of_isBoundary {ts : List Token} (h : ∀ x ∈ ts, x.kind.isBoundary = false) :
    ∀ x ∈ ts, x.kind ≠ .endOfInput := by
  intro x hx hend
  have := h x hx
  rw [hend] at this
  cases this

theorem isBoundary_of_newlines {breaks : List Token} (h : ∀ t ∈ breaks, t.kind = .newline) :
    ∀ t ∈ breaks, t.kind.isBoundary = false := by
  intro t ht
  rw [h t ht]
  rfl

namespace Expr.SpelledBy
variable {p q : Int} {e : Expr} {ts : List Token}

/-- A place that takes more operators takes the same spellings. -/
theorem mono (h : e.SpelledBy p ts) (hq : q ≤ p) : e.SpelledBy q ts := by
  cases h with
  | identifier ht => exact .identifier ht
  | number ht => exact .number ht
  | prefixOp ht operand => exact .prefixOp ht operand
  | group hl hbreaks inner hr => exact .group hl hbreaks inner hr
  | infixOp ht hp left hbreaks right =>
    exact .infixOp ht (Int.lt_of_le_of_lt hq hp) left hbreaks right

/-- A spelling is not empty. It starts with a token that opens an expression. -/
theorem exists_cons (h : e.SpelledBy p ts) :
    ∃ t us o, ts = t :: us ∧ t.kind.opening? = some o := by
  induction h with
  | identifier ht => exact ⟨_, _, .identifier, rfl, by rw [ht]; rfl⟩
  | number ht => exact ⟨_, _, .number, rfl, by rw [ht]; rfl⟩
  | prefixOp ht _ _ => exact ⟨_, _, _, rfl, ht⟩
  | group hl _ _ _ _ => exact ⟨_, _, .group, rfl, by rw [hl]; rfl⟩
  | infixOp _ _ _ _ _ ih _ =>
    obtain ⟨t, us, o, rfl, ho⟩ := ih
    exact ⟨t, _, o, rfl, ho⟩

/-- No token of an expression is one at which recovery stops. -/
theorem isBoundary_eq_false (h : e.SpelledBy p ts) : ∀ t ∈ ts, t.kind.isBoundary = false := by
  induction h with
  | identifier ht => simp [ht, Token.Kind.isBoundary, Token.Kind.startsStatement]
  | number ht => simp [ht, Token.Kind.isBoundary, Token.Kind.startsStatement]
  | prefixOp ht _ ih => exact List.forall_mem_cons.2 ⟨Token.Kind.isBoundary_of_opening? ht, ih⟩
  | group hl hbreaks _ hr ih =>
    simp only [List.cons_append, List.forall_mem_cons, List.forall_mem_append]
    refine ⟨by rw [hl]; rfl, ⟨isBoundary_of_newlines hbreaks, ih⟩, by rw [hr]; rfl, by simp⟩
  | infixOp ht _ _ hbreaks _ ihl ihr =>
    simp only [List.forall_mem_cons, List.forall_mem_append]
    exact ⟨⟨ihl, Token.Kind.isBoundary_of_precedence? ht, isBoundary_of_newlines hbreaks⟩, ihr⟩

end Expr.SpelledBy
end SLFront
