import Mathlib.Data.List.Infix
import Mathlib.Data.List.Perm.Basic
import SLFront.Proofs.ProgramReading
import SLFront.Tree.Outline

/-!
# Trees of erroneous programs

Whatever errors a program has, the tree that comes of it is one of parts that were read in full: an
operator has its operands, and a declaration is spelled by tokens that stand together in the source
text. In source order the tokens of the tree are some of those of the source text, so that no token
belongs to two nodes. A block without declarations has an error to answer for it (`parse_sound`).

The parts are found one after the other (`YieldsBlocks.sound`). What was read may contain the end of
input more than once; a part of it in which the end does not come before something else is a part of
the source text (`Cursor.Upcoming.sublist`, `Cursor.Upcoming.isInfix`).
-/
namespace SLFront

/-! ## Tokens of a tree in source order -/

/-- The tokens of an expression in source order: an infix operator stands between its operands. -/
def Expr.inOrder : Expr → List Token
  | identifier t | number t | typeName t => [t]
  | prefixOp t _ right => t :: right.inOrder
  | infixOp t _ left right => left.inOrder ++ t :: right.inOrder
  | dangling t _ left => left.inOrder ++ [t]

/-- The tokens of a declaration in source order: those of its name, its type and its value. -/
def Declaration.inOrder (d : Declaration) : List Token := d.children.flatMap Expr.inOrder

/-- The tokens of a block in source order. -/
def Block.inOrder (b : Block) : List Token :=
  b.keyword :: b.declarations.flatMap Declaration.inOrder

/-- The tokens of the nodes other than declarations. The token of a declaration is that of its name,
which is a node of its own. -/
def ownTokens (ns : List (Nat × Node)) : List Token :=
  (ns.filter (·.2.kind ≠ .declaration)).map (·.2.token)

section
variable {ns ms : List (Nat × Node)} {depth : Nat}

@[simp] theorem ownTokens_nil : ownTokens [] = [] := rfl

@[simp] theorem ownTokens_append : ownTokens (ns ++ ms) = ownTokens ns ++ ownTokens ms := by
  simp [ownTokens]

@[simp] theorem ownTokens_expr (e : Expr) :
    ownTokens ((depth, .expr e) :: ns) = e.token :: ownTokens ns := by
  have he : (Node.expr e).kind ≠ .declaration := by cases e <;> simp [Node.kind, Expr.kind]
  simp [ownTokens, he, Node.token]

@[simp] theorem ownTokens_declaration (d : Declaration) :
    ownTokens ((depth, .declaration d) :: ns) = ownTokens ns := by
  simp [ownTokens, Node.kind]

@[simp] theorem ownTokens_block (b : Block) :
    ownTokens ((depth, .block b) :: ns) = b.keyword :: ownTokens ns := by
  simp [ownTokens, Node.kind, Node.token]

theorem ownTokens_flatMap {α : Type} (f : α → List (Nat × Node)) (xs : List α) :
    ownTokens (xs.flatMap f) = xs.flatMap fun x => ownTokens (f x) := by
  induction xs with
  | nil => rfl
  | cons x xs ih => simp [ih]

/-- Every node of an expression has a token of its own. -/
theorem Expr.perm_inOrder (e : Expr) : (ownTokens (e.outline depth)).Perm e.inOrder := by
  induction e generalizing depth with
  | identifier | number | typeName => simp [outline, inOrder, token]
  | prefixOp t op right ih => simpa [outline, inOrder, token] using ih
  | infixOp t op left right ihl ihr =>
    simp only [outline, inOrder, List.cons_append, ownTokens_expr, ownTokens_append, token]
    exact ((ihl.append ihr).cons t).trans List.perm_middle.symm
  | dangling t op left ih =>
    simp only [outline, inOrder, ownTokens_expr, token]
    exact (ih.cons t).trans (List.perm_append_singleton t _).symm

theorem Declaration.perm_inOrder (d : Declaration) :
    (ownTokens (d.outline depth)).Perm d.inOrder := by
  rw [outline, ownTokens_declaration, ownTokens_flatMap]
  exact .flatMap_left _ fun e _ => e.perm_inOrder

theorem Block.perm_inOrder (b : Block) : (ownTokens (b.outline depth)).Perm b.inOrder := by
  rw [outline, ownTokens_block, ownTokens_flatMap]
  exact .cons _ (.flatMap_left _ fun d _ => d.perm_inOrder)

end

/-! ## Trees that are spelled -/

/-- A declaration has a value, an infix operator has two operands, and the text of an operator is
that of its token. -/
structure Node.IsWhole (n : Node) : Prop where
  value : ∀ d, n = .declaration d → d.value.isSome
  operands : n.kind = .infixOp → n.children.length = 2
  operator : ∀ e, n = .expr e → ∀ op ∈ e.operator?, op = e.token.lexeme

section
variable {ts : List Token} {depth : Nat}

theorem Expr.SpelledBy.inOrder_sublist {p : Int} {e : Expr} (h : e.SpelledBy p ts) :
    e.inOrder.Sublist ts := by
  induction h with
  | identifier | number => exact .refl _
  | prefixOp _ _ ih => exact ih.cons_cons _
  | @group p l r e breaks ts _ _ _ _ ih =>
    exact (ih.trans (List.sublist_append_right (l :: breaks) ts)).trans
      (List.sublist_append_left _ _)
  | @infixOp p q t l r ls breaks rs _ _ _ _ _ ihl ihr =>
    rw [List.append_assoc, List.cons_append]
    exact ihl.append ((ihr.trans (List.sublist_append_right breaks rs)).cons_cons t)

theorem Node.isWhole_expr {e : Expr} : (expr e).IsWhole ↔
    (e.kind = .infixOp → e.children.length = 2) ∧ ∀ op ∈ e.operator?, op = e.token.lexeme := by
  constructor
  · intro h
    exact ⟨by simpa [Node.kind, Node.children] using h.operands, h.operator e rfl⟩
  · rintro ⟨hoperands, hoperator⟩
    refine ⟨by simp, by simpa [Node.kind, Node.children] using hoperands, ?_⟩
    rintro _ ⟨⟩
    exact hoperator

theorem Node.isWhole_declaration {d : Declaration} :
    (declaration d).IsWhole ↔ d.value.isSome := by
  constructor
  · exact fun h => h.value d rfl
  · intro h
    refine ⟨?_, by simp [Node.kind], by simp⟩
    rintro _ ⟨⟩
    exact h

theorem Expr.SpelledBy.isWhole {p : Int} {e : Expr} (h : e.SpelledBy p ts) (depth : Nat) :
    ∀ n ∈ e.outline depth, n.2.IsWhole := by
  induction h generalizing depth with
  | identifier | number => simp [outline, Node.isWhole_expr, kind, operator?]
  | prefixOp _ _ ih =>
    rw [outline, List.forall_mem_cons]
    exact ⟨Node.isWhole_expr.2 (by simp [kind, operator?, token]), ih _⟩
  | group _ _ _ _ ih => exact ih depth
  | infixOp _ _ _ _ _ ihl ihr =>
    rw [outline, List.cons_append, List.forall_mem_cons, List.forall_mem_append]
    exact ⟨Node.isWhole_expr.2 (by simp [children, operator?, token]), ihl _, ihr _⟩

theorem Declaration.SpelledBy.inOrder_sublist {d : Declaration} (h : d.SpelledBy ts) :
    d.inOrder.Sublist ts := by
  cases h with
  | untyped _ _ value =>
    simpa [inOrder, children, Expr.inOrder] using value.inOrder_sublist.cons _
  | typed _ _ _ _ value =>
    simpa [inOrder, children, Expr.inOrder] using
      ((value.inOrder_sublist.cons _).cons_cons _).cons _

theorem Declaration.SpelledBy.isWhole {d : Declaration} (h : d.SpelledBy ts) :
    ∀ n ∈ d.outline depth, n.2.IsWhole := by
  cases h with
  | untyped _ _ value =>
    simpa [outline, children, Expr.outline, Node.isWhole_declaration, Node.isWhole_expr, Expr.kind,
      Expr.operator?] using value.isWhole (depth + 1)
  | typed _ _ _ _ value =>
    simpa [outline, children, Expr.outline, Node.isWhole_declaration, Node.isWhole_expr, Expr.kind,
      Expr.operator?] using value.isWhole (depth + 1)

theorem Block.isWhole {b : Block} (h : ∀ d ∈ b.declarations, ∃ us, d.SpelledBy us) :
    ∀ n ∈ b.outline depth, n.2.IsWhole := by
  rw [outline, List.forall_mem_cons]
  refine ⟨⟨by simp, by simp [Node.kind], by simp⟩, fun n hn => ?_⟩
  obtain ⟨d, hd, hn⟩ := List.mem_flatMap.1 hn
  obtain ⟨us, hspell⟩ := h d hd
  exact hspell.isWhole n hn

/-- A declaration has a type if and only if a colon follows its name. -/
theorem Declaration.SpelledBy.typeName_isSome_iff {d : Declaration} (h : d.SpelledBy ts) :
    d.typeName.isSome ↔ ∃ t ∈ ts[1]?, t.kind = .symbol .colon := by
  cases h with
  | untyped _ ha => simp [ha]
  | typed _ hc => simp [hc]

end

/-! ## Parts of what was read -/

namespace Cursor.Upcoming
variable {c d : Cursor} {ts us xs : List Token}

/-- Tokens that were read one after the other, the end of input as the last one if at all, lie
ahead. -/
theorem sublist (h : c.Upcoming ts) (hd : c.Reads us d) (hxs : xs.Sublist (c.current :: us))
    (hend : ∀ x ∈ xs.dropLast, x.kind ≠ .endOfInput) : xs.Sublist ts := by
  induction h generalizing us xs with
  | @last c hc hn hs =>
    obtain ⟨-, hus⟩ := hd.of_fixed hs
    rw [hn] at hus
    rw [hus, ← List.replicate_succ, List.sublist_replicate_iff] at hxs
    obtain ⟨n, -, rfl⟩ := hxs
    match n with
    | 0 => exact List.nil_sublist _
    | 1 => exact .refl _
    | n + 2 => exact absurd hc (hend c.current (by simp))
  | @cons c e ts hc hs rest ih =>
    cases hd with
    | refl => exact hxs.trans ((List.nil_sublist _).cons_cons _)
    | step hs' hd =>
      obtain rfl := Option.some.inj (hs'.symm.trans hs)
      rw [← current_of_step hs] at hxs
      obtain hxs | ⟨ys, rfl, hys⟩ := List.sublist_cons_iff.1 hxs
      · exact (ih hd hxs hend).cons _
      · refine (ih hd hys fun x hx => hend x ?_).cons_cons _
        cases ys with
        | nil => cases hx
        | cons y ys => exact List.mem_cons_of_mem _ hx

theorem isPrefix (h : c.Upcoming ts) (hd : c.Reads us d) (hxs : xs <+: c.current :: us)
    (hend : ∀ x ∈ xs, x.kind ≠ .endOfInput) : xs <+: ts := by
  induction h generalizing us xs with
  | @last c hc _ _ =>
    obtain rfl | ⟨xs, rfl, -⟩ := List.prefix_cons_iff.1 hxs
    · exact List.nil_prefix
    · exact absurd hc (hend _ List.mem_cons_self)
  | @cons c e ts hc hs rest ih =>
    obtain rfl | ⟨ys, rfl, hys⟩ := List.prefix_cons_iff.1 hxs
    · exact List.nil_prefix
    · refine List.prefix_cons_iff.2 (.inr ⟨ys, rfl, ?_⟩)
      cases hd with
      | refl =>
        rw [List.prefix_nil.1 hys]
        exact List.nil_prefix
      | step hs' hd =>
        obtain rfl := Option.some.inj (hs'.symm.trans hs)
        rw [← current_of_step hs] at hys
        exact ih hd hys fun x hx => hend x (List.mem_cons_of_mem _ hx)

/-- Tokens other than the end of input that were read together lie ahead together. -/
theorem isInfix (h : c.Upcoming ts) (hd : c.Reads us d) (hxs : xs <:+: c.current :: us)
    (hend : ∀ x ∈ xs, x.kind ≠ .endOfInput) : xs <:+: ts := by
  induction hd generalizing ts with
  | refl c =>
    obtain hxs | hxs := List.infix_cons_iff.1 hxs
    · exact (h.isPrefix (.refl c) hxs hend).isInfix
    · rw [List.infix_nil.1 hxs]
      exact List.nil_infix
  | @step c e d us hs hd ih =>
    obtain hxs | hxs := List.infix_cons_iff.1 hxs
    · exact (h.isPrefix (.step hs hd) hxs hend).isInfix
    · rw [← current_of_step hs] at hxs
      cases h with
      | last hc hn hs' =>
        obtain rfl := Option.some.inj (hs'.symm.trans hs)
        exact ih (.last hc hn hs') hxs
      | cons hc hs' rest =>
        obtain rfl := Option.some.inj (hs'.symm.trans hs)
        exact (ih rest hxs).trans (List.suffix_cons _ _).isInfix

end Cursor.Upcoming

namespace Parser
variable {s t : Parser}

/-! ## What is found -/

/-- The declarations that were found, or the error at the first one. -/
theorem YieldsDeclarations.found {ds : List Declaration} (h : YieldsDeclarations s ds t) :
    ∃ us es, s.Passage us es t ∧ (ds.flatMap Declaration.inOrder).Sublist us ∧
      (∀ d ∈ ds, ∃ ts, ts <:+: us ∧ d.SpelledBy ts) ∧
      (ds = [] → s.next.kind = .identifier →
        ∃ e ∈ es, e.kind ≠ .expectedNewLine ∧ e.token ∈ us ++ [t.next]) := by
  induction h with
  | stop hn => exact ⟨[], [], .refl _, by simp, by simp, fun _ hi => absurd hi hn⟩
  | failed hn h₁ hf =>
    obtain ⟨us, e, hus, hkind, hmem⟩ := hf.exists_error
    rw [current_of_advance h₁] at hmem
    refine ⟨_, _, (Passage.of_advance h₁).trans hus, by simp, by simp, fun _ _ =>
      ⟨e, by simp, ?_, hmem⟩⟩
    intro hk
    rw [hk] at hkind
    exact absurd hkind (by decide)
  | @cons s s₂ s₃ t d ds ts breaks hd hspell hb _ _ _ ih =>
    obtain ⟨us, es, hus, hinOrder, hspelled, -⟩ := ih
    refine ⟨_, _, (hd.trans hb).trans hus, ?_, ?_, by simp⟩
    · rw [List.flatMap_cons]
      exact (hspell.inOrder_sublist.trans (List.sublist_append_left ts breaks)).append hinOrder
    · rw [List.forall_mem_cons]
      refine ⟨⟨ts, ⟨[], breaks ++ us, by simp⟩, hspell⟩, fun d' hd' => ?_⟩
      obtain ⟨ts', hts', hspell'⟩ := hspelled d' hd'
      exact ⟨ts', hts'.trans (List.suffix_append _ us).isInfix, hspell'⟩

/-- Among the tokens, and one more that is next, there is what the blocks are made of: the tokens
of their nodes in source order, the tokens that spell a declaration together, and behind the keyword
of a block without declarations the token of an error. -/
structure Sound (ts : List Token) (next : Token) (bs : List Block) (es : List SyntaxError) :
    Prop where
  keyword : ∀ b ∈ bs, b.keyword.kind.opensBlock
  inOrder : (bs.flatMap Block.inOrder).Sublist ts
  spelled : ∀ b ∈ bs, ∀ d ∈ b.declarations, ∃ us, us <:+: ts ∧ d.SpelledBy us
  undeclared : ∀ b ∈ bs, b.declarations = [] →
    ∃ e ∈ es, e.kind ≠ .expectedNewLine ∧ [b.keyword, e.token].Sublist (ts ++ [next])

namespace Sound
variable {ts us : List Token} {next next' : Token} {bs cs : List Block} {es fs : List SyntaxError}

theorem nil (ts : List Token) (next : Token) (es : List SyntaxError) : Sound ts next [] es where
  keyword := by simp
  inOrder := by simp
  spelled := by simp
  undeclared := by simp

theorem append (h : Sound ts next bs es) (h' : Sound (next :: us) next' cs fs) :
    Sound (ts ++ next :: us) next' (bs ++ cs) (es ++ fs) where
  keyword := List.forall_mem_append.2 ⟨h.keyword, h'.keyword⟩
  inOrder := by
    rw [List.flatMap_append]
    exact h.inOrder.append h'.inOrder
  spelled := by
    refine List.forall_mem_append.2 ⟨fun b hb d hd => ?_, fun b hb d hd => ?_⟩
    · obtain ⟨vs, hvs, hspell⟩ := h.spelled b hb d hd
      exact ⟨vs, hvs.trans (List.prefix_append _ _).isInfix, hspell⟩
    · obtain ⟨vs, hvs, hspell⟩ := h'.spelled b hb d hd
      exact ⟨vs, hvs.trans (List.suffix_append _ _).isInfix, hspell⟩
  undeclared := by
    refine List.forall_mem_append.2 ⟨fun b hb hnone => ?_, fun b hb hnone => ?_⟩
    · obtain ⟨e, he, hkind, hsublist⟩ := h.undeclared b hb hnone
      refine ⟨e, List.mem_append_left _ he, hkind, hsublist.trans ?_⟩
      simp
    · obtain ⟨e, he, hkind, hsublist⟩ := h'.undeclared b hb hnone
      refine ⟨e, List.mem_append_right _ he, hkind, hsublist.trans ?_⟩
      simp

/-- The end of input belongs to no node. -/
theorem ne_endOfInput (h : Sound ts next bs es) :
    ∀ x ∈ bs.flatMap Block.inOrder, x.kind ≠ .endOfInput := by
  intro x hx
  obtain ⟨b, hb, hx⟩ := List.mem_flatMap.1 hx
  obtain rfl | hx := List.mem_cons.1 hx
  · exact (Token.Kind.ne_of_opensBlock (h.keyword b hb)).2
  · obtain ⟨d, hd, hx⟩ := List.mem_flatMap.1 hx
    obtain ⟨us, -, hspell⟩ := h.spelled b hb d hd
    exact ne_endOfInput_of_isBoundary hspell.isBoundary_eq_false x
      (hspell.inOrder_sublist.subset hx)

end Sound

theorem YieldsBlock.sound {b : Block} (h : YieldsBlock s b t) (hc : s.current.kind.opensBlock) :
    ∃ us es, s.Passage us es t ∧ Sound (s.current :: us) t.next [b] es := by
  cases h with
  | @declared breaks u _ ds hb _ hn rest =>
    obtain ⟨us, es, hus, hinOrder, hspelled, herror⟩ := rest.found
    refine ⟨_, _, hb.trans hus, by simpa using hc, ?_, ?_, ?_⟩
    · rw [List.flatMap_singleton]
      exact (hinOrder.trans (List.sublist_append_right breaks us)).cons_cons _
    · simp only [List.forall_mem_singleton]
      intro d hd
      obtain ⟨ts, hts, hspell⟩ := hspelled d hd
      exact ⟨ts, hts.trans (List.suffix_append (s.current :: breaks) us).isInfix, hspell⟩
    · simp only [List.forall_mem_singleton]
      intro hnone
      obtain ⟨e, he, hkind, hmem⟩ := herror hnone hn
      refine ⟨e, List.mem_append_right _ he, hkind, ?_⟩
      rw [List.cons_append, List.append_assoc]
      exact .cons_cons _ (List.singleton_sublist.2 (List.mem_append_right _ hmem))
  | @undeclared breaks u _ hb _ hf =>
    obtain ⟨vs, hvs, -⟩ := fail_eq_ok hf
    refine ⟨_, _, hb.trans hvs, by simpa using hc, by simp [Block.inOrder], by simp, ?_⟩
    simp only [List.forall_mem_singleton]
    refine fun _ => ⟨_, List.mem_append_right _ (List.mem_singleton_self _), by simp, ?_⟩
    rw [List.cons_append, List.append_assoc]
    exact .cons_cons _ (List.singleton_sublist.2 (List.mem_append_right _ hvs.next_mem))

/-- What is found in a program is sound, whatever errors there are. -/
theorem YieldsBlocks.sound {bs : List Block} (h : YieldsBlocks s bs t) :
    ∃ us es, s.cursor.Reads us t.cursor ∧ t.errors = s.errors ++ es ∧
      Sound (s.current :: us) t.next bs es :=
  h.of_parts (fun _ _ => .nil _ _ _) (fun hb hc => hb.sound hc) fun h h' => h.append h'

end Parser

/-! ## Source texts -/

/-- Whatever errors a source text has, its tree is whole: nothing is missing in its nodes, and each
declaration is spelled by tokens that stand together in the source text, from its name on. In source
order the tokens of the tree are tokens of the source text, each behind the one before, and no two
nodes have the same one, but for a declaration and its name. Behind a block without declarations
there is an error other than a missing line break. -/
theorem parse_sound {source filename : String} {ts : List Token}
    (h : tokenize source filename = .ok ts) :
    ∃ bs es, parse source filename = .ok (bs, es) ∧
      (∀ b ∈ bs, ∀ n ∈ b.outline 0, n.2.IsWhole) ∧
      (∀ b ∈ bs, ∀ d ∈ b.declarations, ∃ us, us <:+: ts ∧ d.SpelledBy us ∧
        us.head? = some d.name ∧ (d.typeName.isSome ↔ ∃ t ∈ us[1]?, t.kind = .symbol .colon)) ∧
      (bs.flatMap Block.inOrder).Sublist ts ∧
      (bs.flatMap Block.inOrder).Pairwise (fun t u => t.location.offset < u.location.offset) ∧
      (ownTokens (bs.flatMap (Block.outline 0))).Nodup ∧
      ∀ b ∈ bs, b.declarations = [] → ∃ e ∈ es, e.kind ≠ .expectedNewLine ∧
        b.keyword.location.offset < e.token.location.offset := by
  obtain ⟨s, t, bs, hupcoming, herrors, hstatements, -, hyields, hparse⟩ :=
    exists_run_of_tokenize h
  obtain ⟨-, -, -, hrecorded, -⟩ := hyields.reads
  obtain ⟨us, es, hreads, herrors', hsound⟩ := hyields.sound
  rw [hstatements, List.nil_append] at hrecorded
  rw [herrors, List.nil_append] at herrors'
  -- The next token at the end can be read as well.
  obtain ⟨d, hstep⟩ := Option.isSome_iff_exists.1 (hupcoming.clean _ _ hreads)
  have hpairwise := pairwise_of_tokenize h
  have hinOrder : (bs.flatMap Block.inOrder).Sublist ts :=
    hupcoming.sublist hreads hsound.inOrder fun x hx =>
      hsound.ne_endOfInput x (List.dropLast_subset _ hx)
  refine ⟨bs, es, by rw [hparse, hrecorded, herrors'], ?_, ?_, hinOrder,
    hpairwise.sublist hinOrder, ?_, ?_⟩
  · refine fun b hb => Block.isWhole fun d hd => ?_
    obtain ⟨us, -, hspell⟩ := hsound.spelled b hb d hd
    exact ⟨us, hspell⟩
  · intro b hb d hd
    obtain ⟨vs, hvs, hspell⟩ := hsound.spelled b hb d hd
    obtain ⟨ws, rfl, -⟩ := hspell.exists_cons
    exact ⟨_, hupcoming.isInfix hreads hvs
      (ne_endOfInput_of_isBoundary hspell.isBoundary_eq_false), hspell, rfl,
      hspell.typeName_isSome_iff⟩
  · rw [ownTokens_flatMap]
    refine (List.Perm.flatMap_left _ fun b _ => b.perm_inOrder).nodup_iff.2 ?_
    exact hinOrder.nodup (nodup_of_tokenize h)
  · intro b hb hnone
    obtain ⟨e, he, hkind, hsublist⟩ := hsound.undeclared b hb hnone
    have hkeyword := (Token.Kind.ne_of_opensBlock (hsound.keyword b hb)).2
    have hread : [b.keyword, e.token].Sublist ts :=
      hupcoming.sublist (hreads.append (.single hstep)) hsublist (by simpa using hkeyword)
    exact ⟨e, he, hkind, by simpa using hpairwise.sublist hread⟩

theorem parse_sound_unclosed_group :
    let source := "var\n x : numerico = -1 +\n (2)\n y = x\n z = (3\nvar 4\n"
    ∃ ts bs es, tokenize source = .ok ts ∧ parse source = .ok (bs, es) ∧
      bs.map (fun b => b.declarations.length) = [2, 0] ∧
      (∀ b ∈ bs, ∀ n ∈ b.outline 0, n.2.IsWhole) ∧
      (∀ b ∈ bs, ∀ d ∈ b.declarations, ∃ us, us <:+: ts ∧ d.SpelledBy us ∧
        us.head? = some d.name ∧ (d.typeName.isSome ↔ ∃ t ∈ us[1]?, t.kind = .symbol .colon)) ∧
      (bs.flatMap Block.inOrder).Sublist ts ∧
      (bs.flatMap Block.inOrder).Pairwise (fun t u => t.location.offset < u.location.offset) ∧
      (ownTokens (bs.flatMap (Block.outline 0))).Nodup ∧
      ∀ b ∈ bs, b.declarations = [] → ∃ e ∈ es, e.kind ≠ .expectedNewLine ∧
        b.keyword.location.offset < e.token.location.offset := by
  intro source
  obtain ⟨ts, hts⟩ : ∃ ts, tokenize source = .ok ts := exists_tokens (by decide +kernel)
  have hlengths : (parse source).toOption.map
      (fun r => r.1.map (fun b => b.declarations.length)) = some [2, 0] := by
    decide +kernel
  obtain ⟨bs, es, hparse, hsound⟩ := parse_sound hts
  rw [hparse] at hlengths
  exact ⟨ts, bs, es, hts, hparse, Option.some.inj hlengths, hsound⟩

end SLFront
