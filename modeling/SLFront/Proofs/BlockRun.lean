import SLFront.Proofs.ExpressionReading

/-!
# Runs of the block parser

What the routines for declarations and blocks read and record, for every way through them. A
declaration either reads its spelling or fails once (`declaration_eq_ok_some`,
`declaration_eq_ok_none`); the declarations of a block, the block itself and the blocks of a program
are inductive relations with a case for each way (`YieldsDeclarations`, `YieldsBlock`,
`YieldsBlocks`), and every result of a routine is one of its relation
(`yieldsDeclarations_of_eq_ok`, `yieldsBlock_of_eq_ok`, `yieldsBlocks_of_eq_ok`).
-/
namespace SLFront.Parser
variable {s t : Parser} {name : Token} {typeName : Option Token} {d : Declaration}

/-! ## Declarations -/

/-- Behind the equal sign there is an expression, or the sign is missing. -/
theorem declarationValue_eq_ok {r : Option Declaration}
    (h : declarationValue name typeName s = .ok r t) :
    (s.next.kind = .symbol .assign ∧ ∃ u value, s.Passage [s.next, u.current] [] u ∧
      expression Precedence.lowest.level u = .ok value t ∧
      r = value.map fun e => ⟨name, typeName, some e⟩) ∨
    (s.next.kind ≠ .symbol .assign ∧ r = none ∧
      fail .expectedEqualSign s.next s = .ok () t) := by
  obtain ⟨_, _, hget, h⟩ := bind_eq_ok_iff.1 h
  cases hget
  by_cases ha : s.next.kind = .symbol .assign
  · rw [if_pos ha] at h
    obtain ⟨_, s₁, h₁, h⟩ := bind_eq_ok_iff.1 h
    obtain ⟨_, s₂, h₂, h⟩ := bind_eq_ok_iff.1 h
    obtain ⟨value, s₃, h₃, h⟩ := bind_eq_ok_iff.1 h
    refine .inl ⟨ha, s₂, value, ?_, ?_⟩
    · rw [current_of_advance h₂]
      exact (Passage.of_advance h₁).trans (Passage.of_advance h₂)
    · cases value <;> cases h <;> exact ⟨h₃, rfl⟩
  · rw [if_neg ha] at h
    obtain ⟨_, _, hf, h⟩ := bind_eq_ok_iff.1 h
    cases h
    exact .inr ⟨ha, rfl, hf⟩

/-- Behind the colon there is a type name, or it is missing; and a declaration may do without. -/
theorem declaration_eq_ok {r : Option Declaration} (h : declaration s = .ok r t) :
    (s.next.kind = .symbol .colon ∧ ∃ u, s.Passage [s.next, u.current] [] u ∧
      u.current.kind.isTypeName ∧ declarationValue s.current (some u.current) u = .ok r t) ∨
    (s.next.kind = .symbol .colon ∧ ∃ u, s.Passage [s.next] [] u ∧ ¬u.next.kind.isTypeName ∧
      r = none ∧ fail .expectedTypeName u.next u = .ok () t) ∨
    (s.next.kind ≠ .symbol .colon ∧ declarationValue s.current none s = .ok r t) := by
  obtain ⟨_, _, hget, h⟩ := bind_eq_ok_iff.1 h
  cases hget
  by_cases hc : s.next.kind = .symbol .colon
  · rw [if_pos hc] at h
    obtain ⟨_, s₁, h₁, h⟩ := bind_eq_ok_iff.1 h
    obtain ⟨_, _, hget, h⟩ := bind_eq_ok_iff.1 h
    cases hget
    have hpass := Passage.of_advance h₁
    by_cases ht : s₁.next.kind.isTypeName
    · rw [if_pos ht] at h
      obtain ⟨_, s₂, h₂, h⟩ := bind_eq_ok_iff.1 h
      rw [← current_of_advance h₂] at h ht
      refine .inl ⟨hc, s₂, ?_, ht, h⟩
      rw [current_of_advance h₂]
      exact hpass.trans (Passage.of_advance h₂)
    · rw [if_neg ht] at h
      obtain ⟨_, _, hf, h⟩ := bind_eq_ok_iff.1 h
      cases h
      exact .inr (.inl ⟨hc, s₁, hpass, ht, rfl, hf⟩)
  · rw [if_neg hc] at h
    exact .inr (.inr ⟨hc, h⟩)

/-- The declarations end where no name is next, or with one that fails, or go on behind line
breaks. -/
theorem declarations_eq_ok {ds : List Declaration} (h : declarations s = .ok ds t) :
    (s.next.kind ≠ .identifier ∧ ds = [] ∧ t = s) ∨
    (s.next.kind = .identifier ∧ ∃ u, s.advance = .ok () u ∧
      (ds = [] ∧ declaration u = .ok none t ∨
        ∃ d ds' v w, ds = d :: ds' ∧ declaration u = .ok (some d) v ∧
          consumeNewlines v = .ok () w ∧ w.remaining < s.remaining ∧
          declarations w = .ok ds' t)) := by
  rw [declarations_eq] at h
  by_cases hn : s.next.kind = .identifier
  · rw [if_pos hn] at h
    obtain ⟨_, s₁, h₁, h⟩ := bind_eq_ok_iff.1 h
    obtain ⟨d, s₂, h₂, h⟩ := bind_eq_ok_iff.1 h
    refine .inr ⟨hn, s₁, h₁, ?_⟩
    cases d with
    | none =>
      cases h
      exact .inl ⟨rfl, h₂⟩
    | some d =>
      obtain ⟨_, s₃, h₃, h⟩ := bind_eq_ok_iff.1 h
      obtain ⟨ds, s₄, h₄, h⟩ := bind_eq_ok_iff.1 h
      cases h
      have lt₁ := (alive_of_identifier hn).lt_of_advance h₁
      have lt₂ := Nat.lt_of_le_of_lt (settles_declaration.le_of_eq_ok h₂) lt₁
      have lt₃ := Nat.lt_of_le_of_lt (settles_consumeNewlines.le_of_eq_ok h₃) lt₂
      exact .inr ⟨d, ds, s₂, s₃, rfl, h₂, h₃, lt₃, h₄⟩
  · rw [if_neg hn] at h
    cases h
    exact .inl ⟨hn, rfl, rfl⟩

theorem declarationValue_eq_ok_some (h : declarationValue name typeName s = .ok (some d) t) :
    ∃ assign ts e, assign.kind = .symbol .assign ∧ s.Passage (assign :: ts) [] t ∧
      e.SpelledBy Precedence.lowest.level ts ∧ d = ⟨name, typeName, some e⟩ ∧
      NoneTighter Precedence.lowest.level t := by
  rcases declarationValue_eq_ok h with ⟨ha, u, value, hu, hvalue, hd⟩ | ⟨-, hd, -⟩
  · obtain ⟨e, rfl, rfl⟩ := Option.map_eq_some_iff.1 hd.symm
    obtain ⟨ts, hts, hspell, hstop⟩ := expression_eq_ok_some hvalue
    exact ⟨s.next, u.current :: ts, e, ha, hu.trans hts, hspell, rfl, hstop⟩
  · cases hd

/-- The errors of a declaration that are found before the offending token is reached. -/
def declarationKinds : List SyntaxError.Kind :=
  [.expectedClosingParen, .expectedEqualSign, .expectedTypeName]

theorem declarationValue_eq_ok_none (h : declarationValue name typeName s = .ok none t)
    (hc : s.current.kind.isBoundary = false) : Fails declarationKinds s t := by
  rcases declarationValue_eq_ok h with ⟨ha, u, value, hu, hvalue, hd⟩ | ⟨-, -, hf⟩
  · obtain rfl := Option.map_eq_none_iff.1 hd.symm
    have hfails : Fails declarationKinds u t := (expression_eq_ok_none hvalue).mono (by decide)
    have hassign : s.next.kind.isBoundary = false := by rw [ha]; rfl
    exact hfails.of_passage hu (by simp [hc, hassign])
  · exact .ahead (by decide) (.refl s) (by simpa using hc) hf

/-- A declaration that is found is spelled by the current token, its name, and those that were read
after it. -/
theorem declaration_eq_ok_some (h : declaration s = .ok (some d) t)
    (hn : s.current.kind = .identifier) :
    ∃ ts, s.Passage ts [] t ∧ d.SpelledBy (s.current :: ts) ∧
      NoneTighter Precedence.lowest.level t := by
  rcases declaration_eq_ok h with ⟨hc, u, hu, ht, h⟩ | ⟨-, -, -, -, hd, -⟩ | ⟨-, h⟩
  · obtain ⟨assign, ts, e, ha, hts, hspell, rfl, hstop⟩ := declarationValue_eq_ok_some h
    exact ⟨_, hu.trans hts, .typed hn hc ht ha hspell, hstop⟩
  · cases hd
  · obtain ⟨assign, ts, e, ha, hts, hspell, rfl, hstop⟩ := declarationValue_eq_ok_some h
    exact ⟨_, hts, .untyped hn ha hspell, hstop⟩

theorem declaration_eq_ok_none (h : declaration s = .ok none t)
    (hn : s.current.kind.isBoundary = false) : Fails declarationKinds s t := by
  have hcolon : s.next.kind = .symbol .colon → s.next.kind.isBoundary = false := by
    intro hc
    rw [hc]
    rfl
  rcases declaration_eq_ok h with ⟨hc, u, hu, ht, h⟩ | ⟨hc, u, hu, -, -, hf⟩ | ⟨-, h⟩
  · have htype := Token.Kind.isBoundary_of_isTypeName ht
    exact Fails.of_used (declarationValue_eq_ok_none h) hu (by simp [hn, hcolon hc, htype])
  · exact .ahead (by decide) hu (by simp [hn, hcolon hc]) hf
  · exact declarationValue_eq_ok_none h hn

/-- The declarations that are found from the next token on. -/
inductive YieldsDeclarations : Parser → List Declaration → Parser → Prop
  | stop {s : Parser} (hn : s.next.kind ≠ .identifier) : YieldsDeclarations s [] s
  | failed {s s₁ t : Parser} (hn : s.next.kind = .identifier) (h₁ : s.advance = .ok () s₁)
    (hf : Fails declarationKinds s₁ t) : YieldsDeclarations s [] t
  | cons {s s₂ s₃ t : Parser} {d : Declaration} {ds : List Declaration} {ts breaks : List Token}
    (hd : s.Passage ts [] s₂) (hspell : d.SpelledBy ts) (hb : s₂.Passage breaks [] s₃)
    (hbreaks : ∀ x ∈ breaks, x.kind = .newline) (hn : s₃.next.kind ≠ .newline)
    (rest : YieldsDeclarations s₃ ds t) : YieldsDeclarations s (d :: ds) t

theorem yieldsDeclarations_of_eq_ok {ds : List Declaration} (h : declarations s = .ok ds t) :
    YieldsDeclarations s ds t := by
  induction hr : s.remaining using Nat.strongRecOn generalizing s ds with
  | _ n ih =>
    subst hr
    obtain ⟨hn, rfl, rfl⟩ | ⟨hn, u, hu, hrest⟩ := declarations_eq_ok h
    · exact .stop hn
    · have hcurrent := current_of_advance hu
      have hname : u.current.kind = .identifier := by rw [hcurrent, hn]
      rcases hrest with ⟨rfl, hnone⟩ | ⟨d, ds, v, w, rfl, hd, hw, lt, hds⟩
      · exact .failed hn hu (declaration_eq_ok_none hnone (by rw [hname]; rfl))
      · obtain ⟨ts, hts, hspell, -⟩ := declaration_eq_ok_some hd hname
        obtain ⟨breaks, hb, hbreaks, hstop⟩ := consumeNewlines_eq_ok hw
        rw [hcurrent] at hspell
        exact .cons ((Passage.of_advance hu).trans hts) hspell hb hbreaks hstop (ih _ lt hds rfl)

/-! ## Blocks -/

/-- The error that a block keyword is not followed by a line break, where it is not. -/
def missingBreak (s : Parser) : List SyntaxError :=
  if s.next.kind = .newline then [] else [⟨.expectedNewLine, s.current⟩]

/-- The block that is found from its keyword on, which is the current token. -/
inductive YieldsBlock (s : Parser) : Block → Parser → Prop
  | declared {breaks : List Token} {u t : Parser} {ds : List Declaration}
    (hb : s.Passage breaks s.missingBreak u) (hbreaks : ∀ x ∈ breaks, x.kind = .newline)
    (hn : u.next.kind = .identifier) (rest : YieldsDeclarations u ds t) :
    YieldsBlock s ⟨s.current, ds⟩ t
  | undeclared {breaks : List Token} {u t : Parser} (hb : s.Passage breaks s.missingBreak u)
    (hbreaks : ∀ x ∈ breaks, x.kind = .newline)
    (hf : fail .expectedVarDeclaration u.next u = .ok () t) : YieldsBlock s ⟨s.current, []⟩ t

/-- A block is its keyword, the line breaks behind it, and declarations, or the error that there is
none. -/
theorem block_eq_ok {b : Block} (h : block s = .ok b t) :
    ∃ breaks u, s.Passage breaks s.missingBreak u ∧ (∀ x ∈ breaks, x.kind = .newline) ∧
      u.next.kind ≠ .newline ∧
      (u.next.kind = .identifier ∧ (∃ ds, b = ⟨s.current, ds⟩ ∧ declarations u = .ok ds t) ∨
        u.next.kind ≠ .identifier ∧ b = ⟨s.current, []⟩ ∧
          fail .expectedVarDeclaration u.next u = .ok () t) := by
  obtain ⟨_, _, hget, h⟩ := bind_eq_ok_iff.1 h
  cases hget
  obtain ⟨u, hu, hbody⟩ : ∃ u, s.Passage [] s.missingBreak u ∧ blockBody s.current u = .ok b t := by
    by_cases hn : s.next.kind = .newline
    · rw [if_pos hn] at h
      refine ⟨s, ?_, h⟩
      rw [missingBreak, if_pos hn]
      exact .refl s
    · rw [if_neg hn] at h
      obtain ⟨_, u, hu, h⟩ := bind_eq_ok_iff.1 h
      refine ⟨u, ?_, h⟩
      rw [missingBreak, if_neg hn]
      exact .of_report hu
  obtain ⟨_, v, hv, hbody⟩ := bind_eq_ok_iff.1 hbody
  obtain ⟨breaks, hpass, hbreaks, hstop⟩ := consumeNewlines_eq_ok hv
  have hb := hu.trans hpass
  rw [List.nil_append, List.append_nil] at hb
  refine ⟨breaks, v, hb, hbreaks, hstop, ?_⟩
  obtain ⟨_, _, hget, hbody⟩ := bind_eq_ok_iff.1 hbody
  cases hget
  by_cases hn : v.next.kind = .identifier
  · rw [if_pos hn] at hbody
    obtain ⟨ds, _, hds, hbody⟩ := bind_eq_ok_iff.1 hbody
    cases hbody
    exact .inl ⟨hn, ds, rfl, hds⟩
  · rw [if_neg hn] at hbody
    obtain ⟨_, _, hf, hbody⟩ := bind_eq_ok_iff.1 hbody
    cases hbody
    exact .inr ⟨hn, rfl, hf⟩

theorem yieldsBlock_of_eq_ok {b : Block} (h : block s = .ok b t) : YieldsBlock s b t := by
  obtain ⟨breaks, u, hb, hbreaks, -, ⟨hn, ds, rfl, hds⟩ | ⟨-, rfl, hf⟩⟩ := block_eq_ok h
  · exact .declared hb hbreaks hn (yieldsDeclarations_of_eq_ok hds)
  · exact .undeclared hb hbreaks hf

/-! ## Programs -/

/-- A statement leaves nothing behind, or is a block, or its token is an error. -/
theorem statement_eq_ok {b : Option Block} (h : statement s = .ok b t) :
    (b = none ∧ (s.current.kind = .newline ∨ s.current.kind.isPlaceholder) ∧ s.Passage [] [] t) ∨
    (∃ c, b = some c ∧ s.current.kind.opensBlock ∧ block s = .ok c t) ∨
    (b = none ∧ s.current.kind ≠ .newline ∧ ¬s.current.kind.opensBlock ∧
      ¬s.current.kind.isPlaceholder ∧ fail .unexpectedExpression s.current s = .ok () t) := by
  obtain ⟨_, _, hget, h⟩ := bind_eq_ok_iff.1 h
  cases hget
  by_cases hnewline : s.current.kind = .newline
  · rw [if_pos hnewline] at h
    cases h
    exact .inl ⟨rfl, .inl hnewline, .refl s⟩
  rw [if_neg hnewline] at h
  by_cases hopens : s.current.kind.opensBlock
  · rw [if_pos hopens] at h
    obtain ⟨c, _, hc, h⟩ := bind_eq_ok_iff.1 h
    cases h
    exact .inr (.inl ⟨c, rfl, hopens, hc⟩)
  rw [if_neg hopens] at h
  by_cases hplaceholder : s.current.kind.isPlaceholder
  · rw [if_pos hplaceholder] at h
    obtain ⟨_, _, hn, h⟩ := bind_eq_ok_iff.1 h
    cases h
    exact .inl ⟨rfl, .inr hplaceholder, .of_notify hn⟩
  · rw [if_neg hplaceholder] at h
    obtain ⟨_, _, hf, h⟩ := bind_eq_ok_iff.1 h
    cases h
    exact .inr (.inr ⟨rfl, hnewline, hopens, hplaceholder, hf⟩)

/-- The blocks that are found from the current token on to the end of input. -/
inductive YieldsBlocks : Parser → List Block → Parser → Prop
  | done {s : Parser} (hc : s.current.kind = .endOfInput) : YieldsBlocks s [] s
  | skip {s u v t : Parser} {bs : List Block}
    (hc : s.current.kind = .newline ∨ s.current.kind.isPlaceholder) (hu : s.Passage [] [] u)
    (hv : u.advance = .ok () v) (rest : YieldsBlocks v bs t) : YieldsBlocks s bs t
  | unexpected {s u v t : Parser} {bs : List Block} (hc : s.current.kind.isBoundary = false)
    (hn : s.current.kind ≠ .newline) (hf : fail .unexpectedExpression s.current s = .ok () u)
    (hv : u.advance = .ok () v) (rest : YieldsBlocks v bs t) : YieldsBlocks s bs t
  | block {s u u' v t : Parser} {b : Block} {bs : List Block} (hc : s.current.kind.opensBlock)
    (hb : YieldsBlock s b u) (ha : append b u = .ok () u') (hv : u'.advance = .ok () v)
    (rest : YieldsBlocks v bs t) : YieldsBlocks s (b :: bs) t

theorem append?_eq_ok {b : Option Block} (h : append? b s = .ok () t) :
    t.cursor = s.cursor ∧ t.statements = s.statements ++ b.toList ∧ t.errors = s.errors := by
  cases b <;> cases h
  · exact ⟨rfl, (List.append_nil _).symm, rfl⟩
  · exact ⟨rfl, rfl, rfl⟩

/-- A program is at its end, or is a statement, a step and a program again. -/
theorem allStatements_eq_ok (h : allStatements s = .ok () t) :
    s.current.kind = .endOfInput ∧ t = s ∨
    s.current.kind ≠ .endOfInput ∧ ∃ b u u' v, statement s = .ok b u ∧ append? b u = .ok () u' ∧
      u'.advance = .ok () v ∧ v.remaining < s.remaining ∧ allStatements v = .ok () t := by
  rw [allStatements_eq] at h
  by_cases hend : s.current.kind = .endOfInput
  · rw [if_pos hend] at h
    cases h
    exact .inl ⟨hend, rfl⟩
  · rw [if_neg hend] at h
    obtain ⟨b, u, hu, h⟩ := bind_eq_ok_iff.1 h
    obtain ⟨_, u', hu', h⟩ := bind_eq_ok_iff.1 h
    obtain ⟨_, v, hv, h⟩ := bind_eq_ok_iff.1 h
    exact .inr ⟨hend, b, u, u', v, hu, hu', hv, remaining_lt_of_turn hend hu hu' hv, h⟩

theorem yieldsBlocks_of_eq_ok (h : allStatements s = .ok () t) : ∃ bs, YieldsBlocks s bs t := by
  induction hr : s.remaining using Nat.strongRecOn generalizing s with
  | _ n ih =>
    subst hr
    obtain ⟨hend, rfl⟩ | ⟨hend, b, u, u', v, hu, hu', hv, lt, h⟩ := allStatements_eq_ok h
    · exact ⟨[], .done hend⟩
    · obtain ⟨bs, rest⟩ := ih _ lt h rfl
      rcases statement_eq_ok hu with ⟨rfl, hc, hpass⟩ | ⟨b, rfl, hc, hb⟩ |
        ⟨rfl, hnewline, hopens, hplaceholder, hf⟩
      · cases hu'
        exact ⟨bs, .skip hc hpass hv rest⟩
      · exact ⟨b :: bs, .block hc (yieldsBlock_of_eq_ok hb) hu' hv rest⟩
      · cases hu'
        have hb : s.current.kind.isBoundary = false := by
          rw [← Bool.not_eq_true, Token.Kind.isBoundary_iff]
          rintro (h | h | h) <;> contradiction
        exact ⟨bs, .unexpected hb hnewline hf hv rest⟩

end SLFront.Parser
