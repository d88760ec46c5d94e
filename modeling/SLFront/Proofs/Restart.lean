import Mathlib.Data.List.Nodup
import SLFront.Proofs.SideBySide
import SLFront.Tree.Outline

/-!
# Starting again behind an error

After an error the parser passes over tokens up to one at which recovery stops
(`SyntaxError.SkipsTo`), and from there on it works as if the source text started there: what it
records is what a new parser records on the tokens that are left, and none of the tokens that were
passed over is ever seen again (`parse_restarts`). The one kind of error that has no recovery is the
missing line break after a block keyword.

The argument goes by turns of the program. A turn reads one statement and records what it is worth,
or fails once and recovers (`turn_of_statement`); the first turn that starts behind the recovery is
one of a new run, with the errors that came later.
-/
namespace SLFront

/-! ## What recovery passes over -/

/-- The parser stands on the offending token when it finds an error of this kind. With the other
kinds the token is still the next one. -/
def SyntaxError.Kind.isAtCurrent : SyntaxError.Kind → Bool
  | noPrefixFound | unexpectedExpression => true
  | _ => false

/-- Recovery from the error passes over the tokens `skipped` and goes on with `rest`, which starts
with the first token at which recovery stops: behind the offending token if the parser stood on it,
and otherwise perhaps with the offending token itself. -/
inductive SyntaxError.SkipsTo (e : SyntaxError) : List Token → List Token → Prop
  | behind {skipped rest : List Token} (hk : e.kind.isAtCurrent)
    (hend : e.token.kind ≠ .endOfInput) (hskipped : ∀ t ∈ skipped, t.kind.isBoundary = false)
    (hrest : ∃ k us, rest = k :: us ∧ k.kind.isBoundary) : SkipsTo e (e.token :: skipped) rest
  | atEnd (hk : e.kind.isAtCurrent) (hend : e.token.kind = .endOfInput) : SkipsTo e [] [e.token]
  | upTo {skipped rest us : List Token} (hk : e.kind.isAtCurrent = false)
    (hfirst : skipped ++ rest = e.token :: us) (hskipped : ∀ t ∈ skipped, t.kind.isBoundary = false)
    (hrest : ∃ k us, rest = k :: us ∧ k.kind.isBoundary) : SkipsTo e skipped rest

/-- The tokens of the nodes of a block. -/
def Block.tokens (b : Block) : List Token := (b.outline 0).map fun n => n.2.token

theorem SyntaxError.SkipsTo.token_mem {e : SyntaxError} {skipped rest : List Token}
    (h : e.SkipsTo skipped rest) : e.token ∈ skipped ++ rest := by
  cases h with
  | behind => exact List.mem_cons_self
  | atEnd => exact List.mem_singleton_self _
  | upTo _ hfirst =>
    rw [hfirst]
    exact List.mem_cons_self

/-! ## The tokens of a tree -/

section
variable {ts : List Token}

theorem Expr.SpelledBy.mem_of_outline {p : Int} {e : Expr} (h : e.SpelledBy p ts) (depth : Nat) :
    ∀ n ∈ e.outline depth, n.2.token ∈ ts := by
  induction h generalizing depth with
  | identifier => simp [outline, Node.token, token]
  | number => simp [outline, Node.token, token]
  | prefixOp _ _ ih =>
    simp only [outline, List.forall_mem_cons]
    exact ⟨List.mem_cons_self, fun n hn => List.mem_cons_of_mem _ (ih _ n hn)⟩
  | group _ _ _ _ ih =>
    intro n hn
    have := ih _ n hn
    simp [this]
  | infixOp _ _ _ _ _ ihl ihr =>
    simp only [outline, List.cons_append, List.forall_mem_cons, List.forall_mem_append]
    refine ⟨by simp [Node.token, token], fun n hn => ?_, fun n hn => ?_⟩
    · simp [ihl _ n hn]
    · simp [ihr _ n hn]

/-- A node of a declaration is its own or that of its name, of its type, or one of its value. -/
theorem Declaration.token_of_outline {d : Declaration} {depth : Nat} {n : Nat × Node}
    (h : n ∈ d.outline depth) : n.2.token = d.name ∨ d.typeName = some n.2.token ∨
      ∃ e, d.value = some e ∧ n ∈ e.outline (depth + 1) := by
  obtain ⟨name, typeName, value⟩ := d
  simp only [outline, children, List.cons_append, List.flatMap_cons, List.flatMap_append,
    List.mem_cons, List.mem_append, List.mem_flatMap] at h
  rcases h with rfl | h | ⟨e, he, h⟩ | ⟨e, he, h⟩
  · exact .inl rfl
  · obtain rfl : n = _ := by simpa [Expr.outline] using h
    exact .inl rfl
  · obtain ⟨t, rfl, rfl⟩ : ∃ t, typeName = some t ∧ Expr.typeName t = e := by simpa using he
    obtain rfl : n = _ := by simpa [Expr.outline] using h
    exact .inr (.inl rfl)
  · exact .inr (.inr ⟨e, by simpa using he, h⟩)

theorem Declaration.SpelledBy.mem_of_outline {d : Declaration} (h : d.SpelledBy ts) (depth : Nat) :
    ∀ n ∈ d.outline depth, n.2.token ∈ ts := by
  intro n hn
  have hcases := Declaration.token_of_outline hn
  cases h with
  | untyped _ _ value =>
    rcases hcases with hname | htype | ⟨e, he, hn⟩
    · simp [hname]
    · cases htype
    · cases he
      simp [value.mem_of_outline _ n hn]
  | typed _ _ _ _ value =>
    rcases hcases with hname | htype | ⟨e, he, hn⟩
    · simp [hname]
    · cases htype
      simp
    · cases he
      simp [value.mem_of_outline _ n hn]

theorem Block.mem_tokens {b : Block} {t : Token} :
    t ∈ b.tokens ↔ t = b.keyword ∨ ∃ d ∈ b.declarations, ∃ n ∈ d.outline 1, n.2.token = t := by
  simp only [tokens, outline, List.map_cons, List.mem_cons, List.mem_map, List.mem_flatMap]
  constructor
  · rintro (h | ⟨n, ⟨d, hd, hn⟩, rfl⟩)
    · exact .inl h
    · exact .inr ⟨d, hd, n, hn, rfl⟩
  · rintro (h | ⟨d, hd, n, hn, rfl⟩)
    · exact .inl h
    · exact .inr ⟨n, ⟨d, hd, hn⟩, rfl⟩

end

/-- The tokens of a block are among these if its keyword and those of its declarations are. -/
theorem Block.mem_of_tokens {ts : List Token} {b : Block} (hkeyword : b.keyword ∈ ts)
    (hds : ∀ d ∈ b.declarations, ∀ n ∈ d.outline 1, n.2.token ∈ ts) :
    ∀ x ∈ (some b).toList.flatMap Block.tokens, x ∈ ts := by
  simp only [Option.toList_some, List.flatMap_singleton, Block.mem_tokens]
  rintro x (rfl | ⟨d, hd, n, hn, rfl⟩)
  · exact hkeyword
  · exact hds d hd n hn

/-! ## Recovery -/

section
variable {c d e : Cursor} {ws vs : List Token} {k : SyntaxError.Kind}

/-- Behind tokens at which recovery does not stop the parser moves on to one at which it does. -/
theorem Cursor.Upcoming.step_boundary (h : c.Upcoming ws) (hc : c.current.kind ≠ .endOfInput)
    (hd : c.Reads vs d) (hvs : ∀ x ∈ vs, x.kind.isBoundary = false)
    (hstop : d.next.kind.isBoundary) (hstep : d.step? = some e) :
    ∃ rest, ws = c.current :: (vs ++ rest) ∧ e.Upcoming rest ∧
      ∃ us, rest = d.next :: us ∧ ∃ k us, rest = k :: us ∧ k.kind.isBoundary := by
  have hne : ∀ x ∈ c.current :: vs, x.kind ≠ .endOfInput :=
    List.forall_mem_cons.2 ⟨hc, ne_endOfInput_of_isBoundary hvs⟩
  obtain ⟨rest, hrest, rfl⟩ := h.split_step hd hstep hne
  obtain ⟨us, hus⟩ := hrest.exists_cons
  rw [current_of_step hstep] at hus
  exact ⟨rest, List.cons_append .., hrest, us, hus, d.next, us, hus, hstop⟩

/-- Recovery from an error at the current token. -/
theorem Cursor.Upcoming.skipsTo_current (h : c.Upcoming ws) (hk : k.isAtCurrent)
    (hd : c.Reads vs d) (hvs : ∀ x ∈ vs, x.kind.isBoundary = false)
    (hstop : d.next.kind.isBoundary) (hstep : d.step? = some e) :
    ∃ skipped rest, ws = skipped ++ rest ∧ e.Upcoming rest ∧
      SyntaxError.SkipsTo ⟨k, c.current⟩ skipped rest := by
  by_cases hend : c.current.kind = .endOfInput
  · cases h with
    | last _ hn hs =>
      obtain ⟨rfl, -⟩ := hd.of_fixed hs
      obtain rfl := Option.some.inj (hs.symm.trans hstep)
      exact ⟨[], _, rfl, .last hend hn hs, .atEnd hk hend⟩
    | cons hc => exact absurd hend hc
  · obtain ⟨rest, rfl, hrest, -, -, hboundary⟩ := h.step_boundary hend hd hvs hstop hstep
    exact ⟨c.current :: vs, rest, rfl, hrest, .behind hk hend hvs hboundary⟩

/-- Recovery from an error at the next token. -/
theorem Cursor.Upcoming.skipsTo_next (h : c.Upcoming ws) (hc : c.current.kind ≠ .endOfInput)
    (hk : k.isAtCurrent = false) (hd : c.Reads vs d)
    (hvs : ∀ x ∈ vs, x.kind.isBoundary = false) (hstop : d.next.kind.isBoundary)
    (hstep : d.step? = some e) :
    ∃ skipped rest, ws = c.current :: (skipped ++ rest) ∧ e.Upcoming rest ∧
      SyntaxError.SkipsTo ⟨k, c.next⟩ skipped rest := by
  obtain ⟨rest, rfl, hrest, us, hus, hboundary⟩ := h.step_boundary hc hd hvs hstop hstep
  obtain ⟨xs, hxs⟩ : ∃ xs, vs ++ rest = c.next :: xs := by
    cases hd with
    | refl => exact ⟨us, hus⟩
    | step _ _ => exact ⟨_, rfl⟩
  exact ⟨vs, rest, rfl, hrest, .upTo hk hxs hvs hboundary⟩

end

namespace Parser
variable {s t u : Parser} {c : Cursor} {ws : List Token}

/-- A failure reads tokens that it can use, and recovers from its error. -/
theorem Fails.skipsTo {kinds : List SyntaxError.Kind} (h : Fails kinds s t)
    (hkinds : ∀ k ∈ kinds, k.isAtCurrent = false ∧ k ≠ .expectedNewLine)
    (hs : s.cursor.Upcoming ws) (hc : t.cursor.step? = some c) :
    ∃ e before skipped rest, t.statements = s.statements ∧ t.errors = s.errors ++ [e] ∧
      e.kind ≠ .expectedNewLine ∧ ws = before ++ (skipped ++ rest) ∧ c.Upcoming rest ∧
      e.SkipsTo skipped rest := by
  cases h with
  | @here ts u hu hts hf =>
    obtain ⟨vs, hvs, hskipped, hstop⟩ := fail_eq_ok hf
    obtain ⟨xs, hxs, rfl⟩ := hs.split hu.reads (ne_endOfInput_of_isBoundary hts)
    obtain ⟨skipped, rest, rfl, hrest, he⟩ :=
      hxs.skipsTo_current (k := .noPrefixFound) rfl hvs.reads hskipped hstop hc
    have hpass := hu.trans hvs
    exact ⟨_, _, skipped, rest, hpass.statements, hpass.errors, by simp, rfl, hrest, he⟩
  | @ahead kind ts u hk hu hts hf =>
    obtain ⟨vs, hvs, hskipped, hstop⟩ := fail_eq_ok hf
    obtain ⟨hcurrent, hkind⟩ := hkinds kind hk
    have hne := ne_endOfInput_of_isBoundary hts
    obtain ⟨xs, hxs, rfl⟩ := hs.split hu.reads fun x hx => hne x (List.dropLast_subset _ hx)
    have hend : u.cursor.current.kind ≠ .endOfInput := hne _ hu.current_mem
    obtain ⟨skipped, rest, rfl, hrest, he⟩ :=
      hxs.skipsTo_next hend hcurrent hvs.reads hskipped hstop hc
    have hpass := hu.trans hvs
    exact ⟨_, (s.current :: ts).dropLast ++ [u.current], skipped, rest, hpass.statements,
      hpass.errors, hkind, by simp, hrest, he⟩

/-- Declarations are read to their end, or up to one that fails. The tokens of those that were found
lie before the name of the one that fails. -/
theorem YieldsDeclarations.passage_or_fails {ds : List Declaration}
    (h : YieldsDeclarations s ds t) :
    (∃ us, s.Passage us [] t ∧ (∀ x ∈ us, x.kind.isBoundary = false) ∧
      ∀ d ∈ ds, ∀ n ∈ d.outline 1, n.2.token ∈ us) ∨
    ∃ us u, s.Passage us [] u ∧ us ≠ [] ∧ (∀ x ∈ us, x.kind.isBoundary = false) ∧
      (∀ d ∈ ds, ∀ n ∈ d.outline 1, n.2.token ∈ us.dropLast) ∧ Fails declarationKinds u t := by
  induction h with
  | stop => exact .inl ⟨[], .refl _, by simp, by simp⟩
  | @failed s s₁ t hn h₁ hf =>
    refine .inr ⟨_, s₁, .of_advance h₁, by simp, ?_, by simp, hf⟩
    rw [List.forall_mem_singleton, hn]
    rfl
  | @cons s s₂ s₃ t d ds ts breaks hd hspell hb hbreaks _ _ ih =>
    have hpass := hd.trans hb
    have hread : ∀ x ∈ ts ++ breaks, x.kind.isBoundary = false :=
      List.forall_mem_append.2 ⟨hspell.isBoundary_eq_false, isBoundary_of_newlines hbreaks⟩
    rcases ih with ⟨us, hus, hnone, htokens⟩ | ⟨us, u, hus, hne, hnone, htokens, hf⟩
    · refine .inl ⟨_, hpass.trans hus, List.forall_mem_append.2 ⟨hread, hnone⟩, ?_⟩
      refine List.forall_mem_cons.2 ⟨fun n hn => ?_, fun c hc n hn => ?_⟩
      · simp [hspell.mem_of_outline 1 n hn]
      · exact List.mem_append_right _ (htokens c hc n hn)
    · refine .inr ⟨_, u, hpass.trans hus, by simp [hne],
        List.forall_mem_append.2 ⟨hread, hnone⟩, ?_, hf⟩
      rw [List.dropLast_append_of_ne_nil hne]
      refine List.forall_mem_cons.2 ⟨fun n hn => ?_, fun c hc n hn => ?_⟩
      · simp [hspell.mem_of_outline 1 n hn]
      · exact List.mem_append_right _ (htokens c hc n hn)

/-! ## Turns of a program -/

/-- What a turn makes of the tokens ahead: it reads some of them, for its statement, and leaves the
rest, or it fails behind them and passes over what is skipped. -/
inductive Turn (ws : List Token) (b : Option Block) : List SyntaxError → List Token → Prop
  | clean {before rest : List Token} {es : List SyntaxError} (hws : ws = before ++ rest)
    (hb : ∀ x ∈ b.toList.flatMap Block.tokens, x ∈ before)
    (hes : ∀ e ∈ es, e.kind = .expectedNewLine ∧ e.token ∈ before) : Turn ws b es rest
  | failed (before : List Token) (es : List SyntaxError) {skipped rest : List Token}
    {e : SyntaxError} (hws : ws = before ++ (skipped ++ rest))
    (hb : ∀ x ∈ b.toList.flatMap Block.tokens, x ∈ before)
    (hes : ∀ e ∈ es, e.kind = .expectedNewLine ∧ e.token ∈ before)
    (he : e.kind ≠ .expectedNewLine) (hskip : e.SkipsTo skipped rest) : Turn ws b (es ++ [e]) rest

theorem of_mem_missingBreak {ts : List Token} (h : s.current ∈ ts) :
    ∀ e ∈ s.missingBreak, e.kind = .expectedNewLine ∧ e.token ∈ ts := by
  unfold missingBreak
  split
  · exact List.forall_mem_nil _
  · exact List.forall_mem_singleton.2 ⟨rfl, h⟩

/-- A block is read to its end, or up to its failure. -/
theorem YieldsBlock.turn {b : Block} (h : YieldsBlock s b t) (hopens : s.current.kind.opensBlock)
    (hs : s.cursor.Upcoming ws) (hc : t.cursor.step? = some c) :
    ∃ es rest, t.statements = s.statements ∧ t.errors = s.errors ++ es ∧ c.Upcoming rest ∧
      Turn ws (some b) es rest := by
  have hkeyword : s.cursor.current.kind ≠ .endOfInput := (Token.Kind.ne_of_opensBlock hopens).2
  cases h with
  | @declared breaks u _ ds hb hbreaks hn rest =>
    have hne : ∀ {us : List Token}, (∀ x ∈ us, x.kind.isBoundary = false) →
        ∀ x ∈ s.cursor.current :: (breaks ++ us), x.kind ≠ .endOfInput := by
      intro us hus
      refine List.forall_mem_cons.2 ⟨hkeyword, ne_endOfInput_of_isBoundary ?_⟩
      exact List.forall_mem_append.2 ⟨isBoundary_of_newlines hbreaks, hus⟩
    rcases rest.passage_or_fails with
      ⟨us, hus, hnone, htokens⟩ | ⟨us, v, hus, hnil, hnone, htokens, hf⟩
    · have hpass := hb.trans hus
      obtain ⟨xs, hxs, hws⟩ := hs.split_step hpass.reads hc (hne hnone)
      refine ⟨s.missingBreak, xs, hpass.statements, by rw [hpass.errors, List.append_nil], hxs,
        .clean hws (Block.mem_of_tokens List.mem_cons_self fun d hd n hn => ?_)
          (of_mem_missingBreak List.mem_cons_self)⟩
      exact List.mem_cons_of_mem _ (List.mem_append_right _ (htokens d hd n hn))
    · have hpass := hb.trans hus
      obtain ⟨xs, hxs, rfl⟩ := hs.split hpass.reads fun x hx =>
        hne hnone x (List.dropLast_subset _ hx)
      obtain ⟨e, before, skipped, rest, hstatements, herrors, hkind, rfl, hrest, he⟩ :=
        hf.skipsTo (by decide) hxs hc
      have hdrop : (s.cursor.current :: (breaks ++ us)).dropLast =
          s.current :: (breaks ++ us.dropLast) := by
        rw [← List.cons_append, List.dropLast_append_of_ne_nil hnil]
        rfl
      refine ⟨s.missingBreak ++ [e], rest, hstatements.trans hpass.statements, ?_, hrest,
        .failed (s.current :: (breaks ++ us.dropLast) ++ before) _ ?_
          (Block.mem_of_tokens List.mem_cons_self fun d hd n hn => ?_)
          (of_mem_missingBreak List.mem_cons_self) hkind he⟩
      · rw [herrors, hpass.errors]
        simp
      · rw [hdrop, List.append_assoc]
      · have := htokens d hd n hn
        simp [this]
  | @undeclared breaks u _ hb hbreaks hf =>
    obtain ⟨vs, hvs, hskipped, hstop⟩ := fail_eq_ok hf
    have hread : ∀ x ∈ s.cursor.current :: breaks, x.kind ≠ .endOfInput :=
      List.forall_mem_cons.2 ⟨hkeyword,
        ne_endOfInput_of_isBoundary (isBoundary_of_newlines hbreaks)⟩
    obtain ⟨xs, hxs, rfl⟩ := hs.split hb.reads fun x hx => hread x (List.dropLast_subset _ hx)
    have hend : u.cursor.current.kind ≠ .endOfInput := hread _ hb.current_mem
    obtain ⟨skipped, rest, rfl, hrest, he⟩ :=
      hxs.skipsTo_next hend (k := .expectedVarDeclaration) rfl hvs.reads hskipped hstop hc
    have hpass := hb.trans hvs
    refine ⟨_, rest, hpass.statements, hpass.errors, hrest,
      .failed (s.current :: breaks) _ ?_ (Block.mem_of_tokens List.mem_cons_self (by simp))
        (of_mem_missingBreak List.mem_cons_self) (by simp) he⟩
    rw [← hb.dropLast_append]
    simp

/-- A statement is read to its end, or up to its failure. -/
theorem turn_of_statement {b : Option Block} (h : statement s = .ok b t)
    (hend : s.current.kind ≠ .endOfInput) (hs : s.cursor.Upcoming ws)
    (hc : t.cursor.step? = some c) :
    ∃ es rest, t.statements = s.statements ∧ t.errors = s.errors ++ es ∧ c.Upcoming rest ∧
      Turn ws b es rest := by
  rcases statement_eq_ok h with ⟨rfl, -, hpass⟩ | ⟨b, rfl, hopens, hb⟩ | ⟨rfl, -, -, -, hf⟩
  · obtain ⟨rest, hrest, rfl⟩ := hs.split_step hpass.reads hc (by simpa using hend)
    exact ⟨[], rest, hpass.statements, hpass.errors, hrest, .clean rfl (by simp) (by simp)⟩
  · exact (yieldsBlock_of_eq_ok hb).turn hopens hs hc
  · obtain ⟨vs, hvs, hskipped, hstop⟩ := fail_eq_ok hf
    obtain ⟨skipped, rest, rfl, hrest, he⟩ :=
      hs.skipsTo_current (k := .unexpectedExpression) rfl hvs.reads hskipped hstop hc
    exact ⟨_, rest, hvs.statements, hvs.errors, hrest,
      .failed [] [] rfl (by simp) (by simp) (by simp) he⟩

namespace Turn
variable {b : Option Block} {es es₁ es₂ : List SyntaxError} {rest : List Token} {e : SyntaxError}

/-- What a turn reads holds the tokens of its block, and its errors are at tokens ahead. -/
theorem exists_append (h : Turn ws b es rest) :
    ∃ read, ws = read ++ rest ∧ (∀ x ∈ b.toList.flatMap Block.tokens, x ∈ read) ∧
      ∀ e ∈ es, e.token ∈ ws := by
  cases h with
  | @clean before _ _ hws hb hes =>
    exact ⟨before, hws, hb, fun e he => hws ▸ List.mem_append_left _ (hes e he).2⟩
  | @failed before es skipped _ e hws hb hes he hskip =>
    refine ⟨before ++ skipped, by rw [hws, List.append_assoc],
      fun x hx => List.mem_append_left _ (hb x hx), ?_⟩
    rw [List.forall_mem_append, List.forall_mem_singleton, hws]
    exact ⟨fun e he => List.mem_append_left _ (hes e he).2,
      List.mem_append_right _ hskip.token_mem⟩

/-- The failure of a turn is its last error. -/
theorem skipsTo (h : Turn ws b es rest) (hes : es = es₁ ++ e :: es₂)
    (he : e.kind ≠ .expectedNewLine) :
    es₂ = [] ∧ ∃ before skipped, ws = before ++ (skipped ++ rest) ∧ e.SkipsTo skipped rest ∧
      ∀ x ∈ b.toList.flatMap Block.tokens, x ∈ before := by
  cases h with
  | clean _ _ hnone =>
    refine absurd (hnone e ?_).1 he
    simp [hes]
  | @failed before es skipped _ e₀ hws hb hnone _ hskip =>
    rcases List.eq_nil_or_concat es₂ with rfl | ⟨es₃, e₁, rfl⟩
    · obtain ⟨rfl, hlast⟩ := List.append_inj' hes rfl
      obtain rfl := (List.cons.inj hlast).1
      exact ⟨rfl, before, skipped, hws, hskip, hb⟩
    · rw [List.concat_eq_append, ← List.cons_append, ← List.append_assoc] at hes
      obtain ⟨rfl, -⟩ := List.append_inj' hes rfl
      refine absurd (hnone e ?_).1 he
      simp

end Turn

/-! ## Runs -/

/-- The tokens of the blocks and of the errors are among these. -/
structure Within (ts : List Token) (bs : List Block) (es : List SyntaxError) : Prop where
  blocks : ∀ x ∈ bs.flatMap Block.tokens, x ∈ ts
  errors : ∀ e ∈ es, e.token ∈ ts

/-- Behind the error the program starts again: the blocks are some whose tokens lie before it and
those of a run on the tokens behind the recovery, and the later errors are those of that run. -/
inductive Restarts (ws : List Token) (bs : List Block) (e : SyntaxError)
    (later : List SyntaxError) : Prop
  | intro {before skipped rest : List Token} {bs₁ bs₂ : List Block} {v t : Parser}
    (hws : ws = before ++ (skipped ++ rest)) (hskip : e.SkipsTo skipped rest)
    (hbs : bs = bs₁ ++ bs₂) (hbefore : ∀ x ∈ bs₁.flatMap Block.tokens, x ∈ before)
    (hv : v.cursor.Upcoming rest) (hrun : allStatements v = .ok () t)
    (hstatements : t.statements = v.statements ++ bs₂) (herrors : t.errors = v.errors ++ later)
    (hrest : Within rest bs₂ later)

theorem Restarts.append {rest : List Token} {bs cs : List Block} {e : SyntaxError}
    {later : List SyntaxError} (h : Restarts rest bs e later) {read : List Token}
    (hcs : ∀ x ∈ cs.flatMap Block.tokens, x ∈ read) :
    Restarts (read ++ rest) (cs ++ bs) e later := by
  obtain ⟨rfl, hskip, rfl, hbefore, hv, hrun, hstatements, herrors, hrest⟩ := h
  refine .intro (List.append_assoc ..).symm hskip (List.append_assoc ..).symm ?_ hv hrun hstatements
    herrors hrest
  rw [List.flatMap_append, List.forall_mem_append]
  exact ⟨fun x hx => List.mem_append_left _ (hcs x hx),
    fun x hx => List.mem_append_right _ (hbefore x hx)⟩

/-- A program starts again behind each of its errors other than a missing line break. -/
theorem restarts_of_allStatements (h : allStatements s = .ok () t) (hs : s.cursor.Upcoming ws) :
    ∃ bs es, t.statements = s.statements ++ bs ∧ t.errors = s.errors ++ es ∧ Within ws bs es ∧
      ∀ es₁ e es₂, es = es₁ ++ e :: es₂ → e.kind ≠ .expectedNewLine → Restarts ws bs e es₂ := by
  induction hr : s.remaining using Nat.strongRecOn generalizing s ws with
  | _ n ih =>
    subst hr
    obtain ⟨-, rfl⟩ | ⟨hend, b, u, u', v, hu, hu', hv, lt, h⟩ := allStatements_eq_ok h
    · exact ⟨[], [], by simp, by simp, ⟨by simp, by simp⟩, by simp⟩
    · obtain ⟨hcursor, hstatements', herrors'⟩ := append?_eq_ok hu'
      obtain ⟨c, hc, rfl⟩ := advance_eq_ok_iff.1 hv
      rw [hcursor] at hc
      obtain ⟨es₀, rest, hstatements, herrors, hrest, hturn⟩ := turn_of_statement hu hend hs hc
      obtain ⟨bs, es, hbs, hes, hwithin, hrestarts⟩ := ih _ lt h hrest rfl
      rw [statements_moved, hstatements', hstatements, List.append_assoc] at hbs
      rw [errors_moved, herrors', herrors, List.append_assoc] at hes
      obtain ⟨read, rfl, hread, hahead⟩ := hturn.exists_append
      refine ⟨b.toList ++ bs, es₀ ++ es, hbs, hes, ⟨?_, ?_⟩, fun es₁ e es₂ hsplit he => ?_⟩
      · rw [List.flatMap_append, List.forall_mem_append]
        exact ⟨fun x hx => List.mem_append_left _ (hread x hx),
          fun x hx => List.mem_append_right _ (hwithin.blocks x hx)⟩
      · rw [List.forall_mem_append]
        exact ⟨hahead, fun e he => List.mem_append_right _ (hwithin.errors e he)⟩
      · -- The error is one of the later turns, or the failure of this one.
        rcases List.append_eq_append_iff.1 hsplit with ⟨fs, rfl, hfs⟩ | ⟨fs, hfs, hfs'⟩
        · exact (hrestarts fs e es₂ hfs he).append hread
        · cases fs with
          | nil => exact (hrestarts [] e es₂ hfs'.symm he).append hread
          | cons e' fs =>
            obtain ⟨rfl, rfl⟩ := List.cons.inj hfs'
            obtain ⟨rfl, before, skipped, hws, hskip, hbefore⟩ := hturn.skipsTo hfs he
            refine .intro (v := u'.moved c) hws hskip rfl hbefore hrest h ?_ ?_ hwithin
            · rw [statements_moved, hstatements', hstatements, hbs, List.append_assoc]
            · rw [errors_moved, herrors', herrors, hes, List.append_assoc]
              rfl

end Parser

/-! ## Source texts -/

section
variable {l l' l₁ : Lexer} {ts us vs : List Token} {s t : Parser}

/-- A lexer that gives tokens gives the last of them when the first have been taken. -/
theorem Lexer.exists_drain_of_append (hp : l.peeked = none) (h : l.drain = .ok (us ++ vs) l')
    (hvs : vs ≠ []) : ∃ k k' : Lexer, k.peeked = none ∧ k.drain = .ok vs k' := by
  induction us generalizing l with
  | nil => exact ⟨l, l', hp, h⟩
  | cons u us ih =>
    obtain ⟨t, l₁, ht, ⟨-, hts⟩ | ⟨-, ws, hws, hts⟩⟩ := drain_eq_ok h
    · have := (List.cons.inj hts).2
      exact absurd (List.append_eq_nil_iff.1 this).2 hvs
    · rw [List.cons_append] at hts
      exact ih (peeked_of_next ht) (by rw [hws, (List.cons.inj hts).2])

/-- Parsers in front of the same tokens record the same. -/
theorem Parser.parse_of_upcoming {bs : List Block} {es : List SyntaxError}
    (hs : s.cursor.Upcoming ts) (ht : s.allStatements = .ok () t)
    (hstatements : t.statements = s.statements ++ bs) (herrors : t.errors = s.errors ++ es)
    (hp : l.peeked = none) (hl : l.drain = .ok ts l') : l.parse = .ok (bs, es) := by
  obtain ⟨p, l₂, hstart, hupcoming, hnone, hnone', -⟩ := start_of_drain hp hl
  obtain ⟨q, hq, hstatements', herrors'⟩ := Parser.exists_allStatements_of_map (f := id)
    (fun _ => rfl) hs (by rwa [List.map_id]) ht hstatements herrors
  rw [Lexer.parse_of_allStatements hstart hq, hstatements', herrors', hnone, hnone',
    Block.map_mapTokens_id, SyntaxError.map_mapToken_id]
  rfl

theorem Block.keyword_mem_tokens (b : Block) : b.keyword ∈ b.tokens :=
  Block.mem_tokens.2 (.inl rfl)

end

/-- Where a source text has tokens, the parser starts again behind each error other than a missing
line break. No token that recovery passes over is that of a node or of a later error; and a new
parser on the tokens behind the recovery, of which there are lexers, gives the blocks that stand
there and the later errors. -/
theorem parse_restarts {source filename : String} {ts : List Token}
    (h : tokenize source filename = .ok ts) :
    ∃ bs es, parse source filename = .ok (bs, es) ∧
      ∀ es₁ e es₂, es = es₁ ++ e :: es₂ → e.kind ≠ .expectedNewLine →
        ∃ before skipped rest, ts = before ++ (skipped ++ rest) ∧ e.SkipsTo skipped rest ∧
          (∀ t ∈ skipped, (∀ b ∈ bs, t ∉ b.tokens) ∧ ∀ e' ∈ es₂, e'.token ≠ t) ∧
          (∃ l l' : Lexer, l.peeked = none ∧ l.drain = .ok rest l') ∧
          ∀ l l' : Lexer, l.peeked = none → l.drain = .ok rest l' →
            l.parse = .ok (bs.filter (·.keyword ∈ rest), es₂) := by
  obtain ⟨s, t, -, hupcoming, herrors, hstatements, ht, -, hparse⟩ := exists_run_of_tokenize h
  obtain ⟨bs, es, hbs, hes, -, hrestarts⟩ := Parser.restarts_of_allStatements ht hupcoming
  rw [hstatements, List.nil_append] at hbs
  rw [herrors, List.nil_append] at hes
  refine ⟨bs, es, by rw [hparse, hbs, hes], fun es₁ e es₂ hsplit he => ?_⟩
  obtain @⟨before, skipped, rest, bs₁, bs₂, v, u, rfl, hskip, rfl, hbefore, hv, hrun, hstatements',
    herrors', hrest⟩ := hrestarts es₁ e es₂ hsplit he
  have hnodup := nodup_of_tokenize h
  have hbehind : ∀ x ∈ before, x ∉ skipped ++ rest := fun x hx hx' =>
    List.disjoint_of_nodup_append hnodup hx hx'
  have hskipped : ∀ x ∈ skipped, x ∉ rest := fun x hx hx' =>
    List.disjoint_of_nodup_append (List.nodup_append.1 hnodup).2.1 hx hx'
  refine ⟨before, skipped, rest, rfl, hskip, fun x hx => ⟨fun b hb hmem => ?_, ?_⟩, ?_, ?_⟩
  · rcases List.mem_append.1 hb with hb | hb
    · exact hbehind x (hbefore x (List.mem_flatMap.2 ⟨b, hb, hmem⟩)) (List.mem_append_left _ hx)
    · exact hskipped x hx (hrest.blocks x (List.mem_flatMap.2 ⟨b, hb, hmem⟩))
  · rintro e' he' rfl
    exact hskipped _ hx (hrest.errors e' he')
  · obtain ⟨us, hus⟩ := hv.exists_cons
    unfold tokenize at h
    split at h
    · rename_i hdrain
      cases h
      rw [← List.append_assoc] at hdrain
      exact Lexer.exists_drain_of_append rfl hdrain (by rw [hus]; exact List.cons_ne_nil _ _)
    · cases h
  · intro l l' hp hl
    have hfirst : bs₁.filter (·.keyword ∈ rest) = [] := by
      refine List.filter_eq_nil_iff.2 fun b hb hmem => ?_
      have := hbefore _ (List.mem_flatMap.2 ⟨b, hb, b.keyword_mem_tokens⟩)
      exact hbehind _ this (List.mem_append_right _ (by simpa using hmem))
    have hsecond : bs₂.filter (·.keyword ∈ rest) = bs₂ := by
      refine List.filter_eq_self.2 fun b hb => ?_
      simpa using hrest.blocks _ (List.mem_flatMap.2 ⟨b, hb, b.keyword_mem_tokens⟩)
    rw [List.filter_append, hfirst, hsecond, List.nil_append]
    exact Parser.parse_of_upcoming hv hrun hstatements' herrors' hp hl

theorem parse_restarts_no_prefix :
    let source := "var\n x = )\n y = 1\nvariables\n z = 2 3"
    ∃ ts bs e es before skipped rest, tokenize source = .ok ts ∧
      parse source = .ok (bs, e :: es) ∧ e.kind = .noPrefixFound ∧ es ≠ [] ∧
      ts = before ++ (skipped ++ rest) ∧ e.SkipsTo skipped rest ∧
      ∀ l l' : Lexer, l.peeked = none → l.drain = .ok rest l' →
        l.parse = .ok (bs.filter (·.keyword ∈ rest), es) := by
  intro source
  obtain ⟨ts, hts⟩ : ∃ ts, tokenize source = .ok ts := exists_tokens (by decide +kernel)
  obtain ⟨bs, es, hparse, hrestarts⟩ := parse_restarts hts
  have hkinds : (parse source).toOption.map (fun r => r.2.map SyntaxError.kind) =
      some [.noPrefixFound, .unexpectedExpression] := by
    decide +kernel
  rw [hparse] at hkinds
  obtain ⟨e, es, rfl, hkind, hes⟩ := List.map_eq_cons_iff.1 (Option.some.inj hkinds)
  obtain ⟨before, skipped, rest, hsplit, hskip, -, -, hrest⟩ :=
    hrestarts [] e es rfl (by rw [hkind]; decide)
  have hne : es ≠ [] := by
    rintro rfl
    cases hes
  exact ⟨ts, bs, e, es, before, skipped, rest, hts, hparse, hkind, hne, hsplit, hskip, hrest⟩

end SLFront
