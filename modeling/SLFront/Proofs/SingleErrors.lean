import SLFront.Proofs.BlockRun

/-!
# One error for each failure

An expression, a declaration or a block that cannot go on with a token records one error and
recovers. It does so in the innermost routine; those around it hand the failure on, and neither move
nor record again. So an expression or a declaration has failed if and only if it has recorded an
error, and then it has recorded one, and stands in front of the next statement (`FailsOnce`). A
block always gives what it has found. It records one error at most behind the one that its keyword
may have (`YieldsBlock.exists_further`).

All of this holds in every state of a parser, however it was reached (`fails_once`).
-/
namespace SLFront.Parser
variable {α β : Type} {s t u : Parser} {r : Option α} {kinds kinds' : List SyntaxError.Kind}

/-- From the one state to the other one error is recorded, of one of the kinds, and recovery has
come to the next statement. -/
def Recovers (kinds : List SyntaxError.Kind) (s t : Parser) : Prop :=
  ∃ e, e.kind ∈ kinds ∧ t.errors = s.errors ++ [e] ∧ t.next.kind.isBoundary

namespace Recovers
variable {ts : List Token}

theorem of_fail {kind : SyntaxError.Kind} {x : Token} (hk : kind ∈ kinds)
    (hf : fail kind x s = .ok () t) : Recovers kinds s t := by
  obtain ⟨ts, hts, -, hstop⟩ := fail_eq_ok hf
  exact ⟨_, hk, hts.errors, hstop⟩

theorem of_passage (h : Recovers kinds u t) (hu : s.Passage ts [] u) : Recovers kinds s t := by
  obtain ⟨e, hk, herrors, hstop⟩ := h
  refine ⟨e, hk, ?_, hstop⟩
  rw [herrors, hu.errors, List.append_nil]

end Recovers

theorem Fails.recovers (h : Fails kinds s t) : Recovers (.noPrefixFound :: kinds) s t := by
  cases h with
  | here hu _ hf => exact (Recovers.of_fail List.mem_cons_self hf).of_passage hu
  | ahead hk hu _ hf => exact (Recovers.of_fail (List.mem_cons_of_mem _ hk) hf).of_passage hu

/-- The routine gives nothing if and only if it records one error, and something if and only if it
records none. Behind an error it has recovered. -/
structure FailsOnce (kinds : List SyntaxError.Kind) (s : Parser) (r : Option α) (t : Parser) :
    Prop where
  eq_none_iff : r = none ↔ ∃ e, t.errors = s.errors ++ [e]
  isSome_iff : r.isSome ↔ t.errors = s.errors
  recovers : ∀ e, t.errors = s.errors ++ [e] → e.kind ∈ kinds ∧ t.next.kind.isBoundary

namespace FailsOnce
variable {ts : List Token}

theorem of_recovers (h : Recovers kinds s t) : FailsOnce kinds s (none : Option α) t := by
  obtain ⟨e, hk, herrors, hstop⟩ := h
  refine ⟨⟨fun _ => ⟨e, herrors⟩, fun _ => rfl⟩, by simp [herrors], fun e' he' => ?_⟩
  obtain rfl : e = e' := by simpa using herrors.symm.trans he'
  exact ⟨hk, hstop⟩

theorem of_errors_eq (a : α) (h : t.errors = s.errors) : FailsOnce kinds s (some a) t :=
  ⟨by simp [h], by simp [h], by simp [h]⟩

theorem mono (h : FailsOnce kinds s r t) (hk : kinds ⊆ kinds') : FailsOnce kinds' s r t where
  eq_none_iff := h.eq_none_iff
  isSome_iff := h.isSome_iff
  recovers e he := ⟨hk (h.recovers e he).1, (h.recovers e he).2⟩

theorem map (h : FailsOnce kinds s r t) (f : α → β) : FailsOnce kinds s (r.map f) t where
  eq_none_iff := Option.map_eq_none_iff.trans h.eq_none_iff
  isSome_iff := by rw [Option.isSome_map, h.isSome_iff]
  recovers := h.recovers

/-- Tokens that are read in front of the routine do not matter. -/
theorem of_passage (h : FailsOnce kinds u r t) (hu : s.Passage ts [] u) :
    FailsOnce kinds s r t := by
  have herrors : u.errors = s.errors := by rw [hu.errors, List.append_nil]
  exact ⟨herrors ▸ h.eq_none_iff, herrors ▸ h.isSome_iff, herrors ▸ h.recovers⟩

end FailsOnce

/-! ## Expressions and declarations -/

theorem failsOnce_expression {p : Int} {r : Option Expr} (h : expression p s = .ok r t) :
    FailsOnce [.noPrefixFound, .expectedClosingParen] s r t := by
  cases r with
  | none => exact .of_recovers (expression_eq_ok_none h).recovers
  | some e =>
    obtain ⟨ts, hts, -⟩ := expression_eq_ok_some h
    exact .of_errors_eq e (by rw [hts.errors, List.append_nil])

theorem failsOnce_declarationValue {name : Token} {typeName : Option Token}
    {r : Option Declaration} (h : declarationValue name typeName s = .ok r t) :
    FailsOnce (.noPrefixFound :: declarationKinds) s r t := by
  rcases declarationValue_eq_ok h with ⟨-, u, value, hu, hvalue, rfl⟩ | ⟨-, rfl, hf⟩
  · exact (((failsOnce_expression hvalue).mono (by decide)).of_passage hu).map _
  · exact .of_recovers (.of_fail (by decide) hf)

theorem failsOnce_declaration {r : Option Declaration} (h : declaration s = .ok r t) :
    FailsOnce (.noPrefixFound :: declarationKinds) s r t := by
  rcases declaration_eq_ok h with ⟨-, u, hu, -, h⟩ | ⟨-, u, hu, -, rfl, hf⟩ | ⟨-, h⟩
  · exact (failsOnce_declarationValue h).of_passage hu
  · exact .of_recovers ((Recovers.of_fail (by decide) hf).of_passage hu)
  · exact failsOnce_declarationValue h

/-! ## Blocks -/

/-- The error behind which a block ends, if there is one: it has recovered from it, and the error is
none of the line break behind the keyword. -/
def EndsWith (further : Option SyntaxError) (t : Parser) : Prop :=
  ∀ e ∈ further, e.kind ∈ .expectedVarDeclaration :: .noPrefixFound :: declarationKinds ∧
    t.next.kind.isBoundary

theorem EndsWith.kind_ne {further : Option SyntaxError} (h : EndsWith further t) :
    ∀ e ∈ further, e.kind ≠ .expectedNewLine := by
  rintro e he heq
  have hkind := (h e he).1
  rw [heq] at hkind
  revert hkind
  decide

theorem YieldsDeclarations.exists_further {ds : List Declaration}
    (h : YieldsDeclarations s ds t) :
    ∃ further : Option SyntaxError, t.errors = s.errors ++ further.toList ∧ EndsWith further t ∧
      (ds = [] → s.next.kind = .identifier → further.isSome) := by
  induction h with
  | stop hn => exact ⟨none, by simp, by simp [EndsWith], fun _ hi => absurd hi hn⟩
  | @failed s s₁ t _ h₁ hf =>
    obtain ⟨e, hk, herrors, hstop⟩ := hf.recovers.of_passage (.of_advance h₁)
    refine ⟨some e, herrors, ?_, fun _ _ => rfl⟩
    rintro _ ⟨⟩
    exact ⟨List.mem_cons_of_mem _ hk, hstop⟩
  | cons hd _ hb _ _ _ ih =>
    obtain ⟨further, herrors, hends, -⟩ := ih
    refine ⟨further, ?_, hends, by simp⟩
    rw [herrors, (hd.trans hb).errors, List.append_nil, List.append_nil]

theorem YieldsBlock.keyword_eq {b : Block} (h : YieldsBlock s b t) : b.keyword = s.current := by
  cases h <;> rfl

theorem YieldsBlock.exists_further {b : Block} (h : YieldsBlock s b t) :
    ∃ further : Option SyntaxError, t.errors = s.errors ++ s.missingBreak ++ further.toList ∧
      EndsWith further t ∧ (b.declarations = [] → further.isSome) := by
  cases h with
  | declared hb _ hn rest =>
    obtain ⟨further, herrors, hends, hnone⟩ := rest.exists_further
    exact ⟨further, by rw [herrors, hb.errors], hends, fun hds => hnone hds hn⟩
  | @undeclared breaks u _ hb _ hf =>
    obtain ⟨vs, hvs, -, hstop⟩ := fail_eq_ok hf
    refine ⟨some ⟨.expectedVarDeclaration, u.next⟩, ?_, ?_, fun _ => rfl⟩
    · rw [hvs.errors, hb.errors]
      rfl
    · rintro _ ⟨⟩
      exact ⟨List.mem_cons_self, hstop⟩

/-- In every state, an expression and a declaration fail if and only if they record an error; then
they record one, and have recovered. A block records a missing line break behind its keyword, where
this is so, and then one error more at most, from which it has recovered; a block without
declarations does record one. -/
theorem fails_once (s : Parser) :
    (∀ p r t, expression p s = .ok r t →
      FailsOnce [.noPrefixFound, .expectedClosingParen] s r t) ∧
    (∀ r t, declaration s = .ok r t →
      FailsOnce [.noPrefixFound, .expectedClosingParen, .expectedEqualSign, .expectedTypeName]
        s r t) ∧
    ∀ b t, block s = .ok b t → ∃ further : Option SyntaxError,
      t.errors = s.errors ++ s.missingBreak ++ further.toList ∧ EndsWith further t ∧
        (b.declarations = [] → further.isSome) :=
  ⟨fun _ _ _ => failsOnce_expression, fun _ _ => failsOnce_declaration,
    fun _ _ h => (yieldsBlock_of_eq_ok h).exists_further⟩

/-- From one and the same name on an expression is found, a declaration fails, and a block has two
errors. -/
theorem fails_once_at_name :
    let s : Parser :=
      { lexer := .start " numerico = (1 +\n) 2\ninicio", current := ⟨.identifier, "x", .mk "" 1 1 0⟩
        next := ⟨.symbol .colon, ":", .mk "" 1 3 2⟩ }
    (∃ e t, expression (-5) s = .ok (some e) t ∧ t.errors = s.errors) ∧
      (∃ t, declaration s = .ok none t ∧ ∃ e, t.errors = s.errors ++ [e]) ∧
      ∃ b t, block s = .ok b t ∧ b.declarations = [] ∧ ∃ further : Option SyntaxError,
        t.errors = s.errors ++ s.missingBreak ++ further.toList ∧ further.isSome := by
  intro s
  obtain ⟨hexpression, hdeclaration, hblock⟩ := fails_once s
  refine ⟨?_, ?_, ?_⟩
  · obtain ⟨t, ht⟩ : ∃ t, expression (-5) s = .ok (some (.identifier s.current)) t :=
      exists_eq_ok_of_run' (by decide +kernel)
    exact ⟨_, t, ht, (hexpression _ _ _ ht).isSome_iff.1 rfl⟩
  · obtain ⟨t, ht⟩ : ∃ t, declaration s = .ok none t := exists_eq_ok_of_run' (by decide +kernel)
    exact ⟨t, ht, (hdeclaration _ _ ht).eq_none_iff.1 rfl⟩
  · obtain ⟨t, ht⟩ : ∃ t, block s = .ok ⟨s.current, []⟩ t :=
      exists_eq_ok_of_run' (by decide +kernel)
    obtain ⟨further, herrors, -, hsome⟩ := hblock _ t ht
    exact ⟨_, t, ht, rfl, further, herrors, hsome rfl⟩

end SLFront.Parser
