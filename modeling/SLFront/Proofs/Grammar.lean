import SLFront.Proofs.Layer
import SLFront.Proofs.ProgramReading

/-!
# The language of the parser

The grammar of programs as sequences of token types. The programs that are parsed without an error
are those of the grammar, and no others (`parse_errors_eq_nil_iff`).

The grammar and the spellings of syntax trees fit together: the types of a spelling are in the
grammar, and tokens with such types spell some tree. The layers of the grammar are the levels of
precedence at which an expression is spelled.

## Main definitions

* `Grammar.Expression`, `Grammar.Declaration`, `Grammar.Item`, `Grammar.Program` — the grammar.
* `Grammar.Program.exists_spelledBy` — tokens with the types of a program spell some blocks.
* `parse_errors_eq_nil_iff` — a source text is parsed without errors if and only if it is in the
  grammar.
-/
namespace SLFront

/-! ## The grammar -/

namespace Grammar

/-- The expressions of a layer. An expression of a layer other than the tightest is made of operands
of the next tighter one, which its operators join from left to right; line breaks may follow an
operator. -/
inductive Expression : Layer → List Token.Kind → Prop
  | identifier : Expression .unary [.identifier]
  | number : Expression .unary [.number]
  | minus {ks : List Token.Kind} (operand : Expression .unary ks) :
    Expression .unary (.symbol .minus :: ks)
  | not {ks : List Token.Kind} (operand : Expression .unary ks) :
    Expression .unary (.keyword .not :: ks)
  | group {n : Nat} {ks : List Token.Kind} (inner : Expression .comparison ks) :
    Expression .unary
      (.symbol .leftParen :: List.replicate n .newline ++ ks ++ [.symbol .rightParen])
  | operand {l : Layer} {ks : List Token.Kind} (h : Expression l.operand ks) : Expression l ks
  | operator {l : Layer} {n : Nat} {s : Symbol} {ks ks' : List Token.Kind} (hs : s ∈ l.operators)
    (left : Expression l ks) (right : Expression l.operand ks') :
    Expression l (ks ++ .symbol s :: List.replicate n .newline ++ ks')

/-- A name, perhaps with a type, and its value. -/
inductive Declaration : List Token.Kind → Prop
  | untyped {ks : List Token.Kind} (value : Expression .comparison ks) :
    Declaration (.identifier :: .symbol .assign :: ks)
  | typed {k : Token.Kind} {ks : List Token.Kind} (hk : k.isTypeName)
    (value : Expression .comparison ks) :
    Declaration (.identifier :: .symbol .colon :: k :: .symbol .assign :: ks)

/-- One declaration or more, with any line breaks between one and the next. -/
inductive Declarations : List Token.Kind → Prop
  | single {ks : List Token.Kind} (h : Declaration ks) : Declarations ks
  | cons {n : Nat} {ks ks' : List Token.Kind} (h : Declaration ks) (rest : Declarations ks') :
    Declarations (ks ++ List.replicate n .newline ++ ks')

/-- What stands at the top of a program: a line break, a word that opens a statement that is not
parsed, or a block, whose keyword at least one line break follows. -/
inductive Item : List Token.Kind → Prop
  | newline : Item [.newline]
  | placeholder {k : Keyword}
    (hk : k ∈ [.const, .constantes, .retorna, .subrutina, .tipos, .tipo, .inicio]) :
    Item [.keyword k]
  | block {k : Keyword} {n : Nat} {ks : List Token.Kind} (hk : k ∈ [.var, .vars])
    (declarations : Declarations ks) :
    Item (.keyword k :: List.replicate (n + 1) .newline ++ ks)

/-- Items up to the end of input. -/
inductive Program : List Token.Kind → Prop
  | nil : Program [.endOfInput]
  | cons {ks ks' : List Token.Kind} (item : Item ks) (rest : Program ks') : Program (ks ++ ks')

end Grammar

/-! ## From spellings to the grammar -/

namespace Layer
variable {l l' : Layer} {k : Token.Kind}

theorem height_injective (h : l.height = l'.height) : l = l' := by
  revert h
  cases l <;> cases l' <;> decide

theorem height_operand (h : 0 < l.height) : l.height = l.operand.height + 1 := by
  revert h
  cases l <;> decide

theorem height_ofLevel_le {p q : Int} (h : p ≤ q) :
    (ofLevel q).height ≤ (ofLevel p).height := by
  unfold ofLevel
  split_ifs <;> first | decide | omega

theorem ofLevel_sub_one : ofLevel (l.precedence.level - 1) = l := by
  cases l <;> rfl

theorem exists_symbol (h : l.takes k) : ∃ s, k = .symbol s ∧ s ∈ l.operators := by
  unfold takes at h
  split at h
  · exact ⟨_, rfl, by simpa using h⟩
  · cases h

/-- Every infix operator is in a layer. -/
theorem exists_precedence {q : Precedence} (h : k.precedence? = some q) :
    ∃ l : Layer, l.precedence = q := by
  have := Token.Kind.level_of_precedence? h
  cases q
  case comparison => exact ⟨.comparison, rfl⟩
  case term => exact ⟨.additive, rfl⟩
  case factor => exact ⟨.multiplicative, rfl⟩
  all_goals exact absurd this (by decide)

end Layer

theorem Token.Kind.opensBlock_iff {k : Token.Kind} :
    k.opensBlock ↔ ∃ w, k = .keyword w ∧ w ∈ [Keyword.var, .vars] := by
  cases k with
  | keyword w =>
    simp only [keyword.injEq, exists_eq_left']
    cases w <;> decide
  | _ => simp [opensBlock]

theorem Token.Kind.isPlaceholder_iff {k : Token.Kind} :
    k.isPlaceholder ↔ ∃ w, k = .keyword w ∧
      w ∈ [Keyword.const, .constantes, .retorna, .subrutina, .tipos, .tipo, .inicio] := by
  cases k with
  | keyword w =>
    simp only [keyword.injEq, exists_eq_left']
    cases w <;> decide
  | _ => simp [isPlaceholder]

/-- A looser layer has all expressions of a tighter one. -/
theorem Grammar.Expression.mono {l l' : Layer} {ks : List Token.Kind} (h : Expression l ks)
    (hl : l.height ≤ l'.height) : Expression l' ks := by
  induction hn : l'.height - l.height generalizing l' with
  | zero =>
    have : l = l' := Layer.height_injective (by omega)
    exact this ▸ h
  | succ n ih =>
    have hstep := Layer.height_operand (l := l') (by omega)
    exact .operand (ih (by omega) (by omega))

section
variable {ts us breaks : List Token}

theorem map_kind_of_newlines (h : ∀ t ∈ breaks, t.kind = .newline) :
    breaks.map Token.kind = List.replicate breaks.length .newline :=
  List.map_eq_replicate_iff.2 h

theorem Expr.SpelledBy.grammar {p : Int} {e : Expr} (h : e.SpelledBy p ts) :
    Grammar.Expression (.ofLevel p) (ts.map Token.kind) := by
  induction h with
  | identifier ht =>
    rw [List.map_singleton, ht]
    exact Grammar.Expression.identifier.mono (Nat.zero_le _)
  | number ht =>
    rw [List.map_singleton, ht]
    exact Grammar.Expression.number.mono (Nat.zero_le _)
  | prefixOp ht _ ih =>
    rw [List.map_cons]
    rcases Token.Kind.opening?_eq_operator ht with hk | hk
    · rw [hk]
      exact ih.minus.mono (Nat.zero_le _)
    · rw [hk]
      exact ih.not.mono (Nat.zero_le _)
  | group hl hbreaks _ hr ih =>
    rw [List.map_append, List.map_append, List.map_cons, List.map_singleton, hl, hr,
      map_kind_of_newlines hbreaks]
    exact ih.group.mono (Nat.zero_le _)
  | @infixOp p q t l r ls breaks rs ht hp _ hbreaks _ ihl ihr =>
    obtain ⟨m, rfl⟩ := Layer.exists_precedence ht
    obtain ⟨s, hs, hmem⟩ := Layer.exists_symbol (Layer.takes_iff.2 ht)
    rw [Layer.ofLevel_sub_one] at ihl
    rw [Layer.ofLevel_level] at ihr
    have hheight := Layer.height_ofLevel_le (Int.le_sub_one_of_lt hp)
    rw [Layer.ofLevel_sub_one] at hheight
    rw [List.map_append, List.map_append, List.map_cons, hs, map_kind_of_newlines hbreaks]
    exact (ihl.operator hmem ihr).mono hheight

theorem Declaration.SpelledBy.grammar {d : Declaration} (h : d.SpelledBy ts) :
    Grammar.Declaration (ts.map Token.kind) := by
  cases h with
  | untyped hn ha value =>
    simp only [List.map_cons, hn, ha]
    exact .untyped value.grammar
  | typed hn hc ht ha value =>
    simp only [List.map_cons, hn, hc, ha]
    exact .typed ht value.grammar

theorem Declaration.AllSpelledBy.grammar {ds : List Declaration} (h : AllSpelledBy ds ts) :
    Grammar.Declarations (ts.map Token.kind) := by
  induction h with
  | single h => exact .single h.grammar
  | cons h hbreaks _ ih =>
    rw [List.map_append, List.map_append, map_kind_of_newlines hbreaks]
    exact .cons h.grammar ih

theorem Block.SpelledBy.grammar {b : Block} (h : b.SpelledBy ts) :
    Grammar.Item (ts.map Token.kind) := by
  obtain ⟨breaks, us, rfl, hne, hbreaks, hus⟩ := h.body
  obtain ⟨k, hk, hmem⟩ := Token.Kind.opensBlock_iff.1 h.keyword
  obtain ⟨n, hn⟩ := Nat.exists_eq_add_of_lt (List.length_pos_iff.2 hne)
  rw [List.map_append, List.map_cons, map_kind_of_newlines hbreaks, hk, hn, Nat.zero_add]
  exact .block hmem hus.grammar

theorem Block.AllSpelledBy.grammar {bs : List Block} {e : Token} (h : AllSpelledBy bs ts)
    (he : e.kind = .endOfInput) : Grammar.Program ((ts ++ [e]).map Token.kind) := by
  induction h with
  | nil =>
    rw [List.nil_append, List.map_singleton, he]
    exact .nil
  | @skip t bs ts ht _ ih =>
    have hitem : Grammar.Item [t.kind] := by
      rcases ht with ht | ht
      · exact ht ▸ .newline
      · obtain ⟨k, hk, hmem⟩ := Token.Kind.isPlaceholder_iff.1 ht
        exact hk ▸ .placeholder hmem
    exact .cons hitem ih
  | cons h _ ih =>
    rw [List.append_assoc, List.map_append]
    exact .cons h.grammar ih

/-! ## From the grammar to spellings -/

theorem newlines_of_map_kind {n : Nat} (h : breaks.map Token.kind = List.replicate n .newline) :
    ∀ t ∈ breaks, t.kind = .newline := by
  intro t ht
  have := List.mem_map_of_mem (f := Token.kind) ht
  rw [h] at this
  exact (List.mem_replicate.1 this).2

/-- Above the levels of all operators a place takes no operators, whatever it asks for. -/
theorem Expr.SpelledBy.of_le {p q : Int} {e : Expr} (h : e.SpelledBy p ts) (hp : 4 ≤ p) :
    e.SpelledBy q ts := by
  cases h with
  | identifier ht => exact .identifier ht
  | number ht => exact .number ht
  | prefixOp ht operand => exact .prefixOp ht operand
  | group hl hbreaks inner hr => exact .group hl hbreaks inner hr
  | infixOp ht hp' _ _ _ =>
    have := (Token.Kind.level_of_precedence? ht).2
    omega

namespace Grammar

theorem Expression.exists_spelledBy {l : Layer} {ks : List Token.Kind} (h : Expression l ks) :
    ∀ ts : List Token, ts.map Token.kind = ks →
      ∃ e : Expr, e.SpelledBy (l.precedence.level - 1) ts := by
  induction h with
  | identifier =>
    intro ts hts
    obtain ⟨t, rfl, ht⟩ := List.map_eq_singleton_iff.1 hts
    exact ⟨_, .identifier ht⟩
  | number =>
    intro ts hts
    obtain ⟨t, rfl, ht⟩ := List.map_eq_singleton_iff.1 hts
    exact ⟨_, .number ht⟩
  | minus _ ih =>
    intro ts hts
    obtain ⟨t, us, rfl, ht, hus⟩ := List.map_eq_cons_iff.1 hts
    obtain ⟨e, he⟩ := ih us hus
    exact ⟨_, .prefixOp (by rw [ht]; rfl) (he.of_le (by decide))⟩
  | not _ ih =>
    intro ts hts
    obtain ⟨t, us, rfl, ht, hus⟩ := List.map_eq_cons_iff.1 hts
    obtain ⟨e, he⟩ := ih us hus
    exact ⟨_, .prefixOp (by rw [ht]; rfl) (he.of_le (by decide))⟩
  | group _ ih =>
    intro ts hts
    obtain ⟨ts, rs, rfl, hts, hr⟩ := List.map_eq_append_iff.1 hts
    obtain ⟨ts, us, rfl, hts, hus⟩ := List.map_eq_append_iff.1 hts
    obtain ⟨l, breaks, rfl, hl, hbreaks⟩ := List.map_eq_cons_iff.1 hts
    obtain ⟨r, rfl, hright⟩ := List.map_eq_singleton_iff.1 hr
    obtain ⟨e, he⟩ := ih us hus
    exact ⟨e, .group hl (newlines_of_map_kind hbreaks) (he.mono (by decide)) hright⟩
  | @operand l ks _ ih =>
    intro ts hts
    obtain ⟨e, he⟩ := ih ts hts
    refine ⟨e, he.mono ?_⟩
    cases l <;> decide
  | @operator l n s ks ks' hs _ _ ihl ihr =>
    intro ts hts
    obtain ⟨ts, rs, rfl, hts, hrs⟩ := List.map_eq_append_iff.1 hts
    obtain ⟨ls, ts, rfl, hls, hts⟩ := List.map_eq_append_iff.1 hts
    obtain ⟨t, breaks, rfl, ht, hbreaks⟩ := List.map_eq_cons_iff.1 hts
    obtain ⟨left, hleft⟩ := ihl ls hls
    obtain ⟨right, hright⟩ := ihr rs hrs
    have htakes : l.takes t.kind := by
      rw [ht]
      exact decide_eq_true hs
    have hlevel : l.precedence.level ≤ l.operand.precedence.level - 1 := by
      cases l <;> first | decide | cases hs
    exact ⟨_, .infixOp (Layer.takes_iff.1 htakes) (Int.sub_one_lt_of_le (Int.le_refl _)) hleft
      (newlines_of_map_kind hbreaks) (hright.mono hlevel)⟩

theorem Declaration.exists_spelledBy {ks : List Token.Kind} (h : Declaration ks) :
    ∀ ts : List Token, ts.map Token.kind = ks → ∃ d : SLFront.Declaration, d.SpelledBy ts := by
  intro ts hts
  cases h with
  | untyped value =>
    obtain ⟨name, vs, rfl, hn, hvs⟩ := List.map_eq_cons_iff.1 hts
    obtain ⟨assign, us, rfl, ha, hus⟩ := List.map_eq_cons_iff.1 hvs
    obtain ⟨e, he⟩ := value.exists_spelledBy us hus
    exact ⟨_, .untyped hn ha (he.mono (by decide))⟩
  | typed hk value =>
    obtain ⟨name, vs, rfl, hn, hvs⟩ := List.map_eq_cons_iff.1 hts
    obtain ⟨colon, vs, rfl, hc, hvs⟩ := List.map_eq_cons_iff.1 hvs
    obtain ⟨typeName, vs, rfl, ht, hvs⟩ := List.map_eq_cons_iff.1 hvs
    obtain ⟨assign, us, rfl, ha, hus⟩ := List.map_eq_cons_iff.1 hvs
    obtain ⟨e, he⟩ := value.exists_spelledBy us hus
    exact ⟨_, .typed hn hc (by rw [ht, hk]) ha (he.mono (by decide))⟩

theorem Declarations.exists_spelledBy {ks : List Token.Kind} (h : Declarations ks) :
    ∀ ts : List Token, ts.map Token.kind = ks → ∃ ds, Declaration.AllSpelledBy ds ts := by
  induction h with
  | single h =>
    intro ts hts
    obtain ⟨d, hd⟩ := h.exists_spelledBy ts hts
    exact ⟨[d], .single hd⟩
  | cons h _ ih =>
    intro ts hts
    obtain ⟨ts, us, rfl, hts, hus⟩ := List.map_eq_append_iff.1 hts
    obtain ⟨ts, breaks, rfl, hts, hbreaks⟩ := List.map_eq_append_iff.1 hts
    obtain ⟨d, hd⟩ := h.exists_spelledBy ts hts
    obtain ⟨ds, hds⟩ := ih us hus
    exact ⟨d :: ds, .cons hd (newlines_of_map_kind hbreaks) hds⟩

/-- An item leaves at most one block. -/
theorem Item.exists_spelledBy {ks : List Token.Kind} (h : Item ks) :
    ∀ ts : List Token, ts.map Token.kind = ks →
      ∃ b : Option Block, ∀ bs us, Block.AllSpelledBy bs us →
        Block.AllSpelledBy (b.toList ++ bs) (ts ++ us) := by
  intro ts hts
  cases h with
  | newline =>
    obtain ⟨t, rfl, ht⟩ := List.map_eq_singleton_iff.1 hts
    exact ⟨none, fun _ _ h => .skip (.inl ht) h⟩
  | placeholder hk =>
    obtain ⟨t, rfl, ht⟩ := List.map_eq_singleton_iff.1 hts
    exact ⟨none, fun _ _ h => .skip (.inr (Token.Kind.isPlaceholder_iff.2 ⟨_, ht, hk⟩)) h⟩
  | block hk declarations =>
    obtain ⟨ts, us, rfl, hts, hus⟩ := List.map_eq_append_iff.1 hts
    obtain ⟨keyword, breaks, rfl, hkeyword, hbreaks⟩ := List.map_eq_cons_iff.1 hts
    obtain ⟨ds, hds⟩ := declarations.exists_spelledBy us hus
    have hne : breaks ≠ [] := by
      rintro rfl
      cases hbreaks
    have hopens : keyword.kind.opensBlock := Token.Kind.opensBlock_iff.2 ⟨_, hkeyword, hk⟩
    exact ⟨some ⟨keyword, ds⟩, fun _ _ h => .cons ⟨hopens, breaks, us, rfl, hne,
      newlines_of_map_kind hbreaks, hds⟩ h⟩

theorem Program.exists_spelledBy {ks : List Token.Kind} (h : Program ks) :
    ∀ ts : List Token, ts.map Token.kind = ks →
      ∃ us e bs, ts = us ++ [e] ∧ e.kind = .endOfInput ∧ Block.AllSpelledBy bs us := by
  induction h with
  | nil =>
    intro ts hts
    obtain ⟨e, rfl, he⟩ := List.map_eq_singleton_iff.1 hts
    exact ⟨[], e, [], rfl, he, .nil⟩
  | cons item _ ih =>
    intro ts hts
    obtain ⟨ts, us, rfl, hts, hus⟩ := List.map_eq_append_iff.1 hts
    obtain ⟨b, hb⟩ := item.exists_spelledBy ts hts
    obtain ⟨us, e, bs, rfl, he, hbs⟩ := ih us hus
    exact ⟨ts ++ us, e, _, (List.append_assoc ..).symm, he, hb bs us hbs⟩

end Grammar

end

/-! ## Exactness -/

/-- Where a source text has tokens, it is parsed without an error if and only if their types are a
program of the grammar. -/
theorem parse_errors_eq_nil_iff {source filename : String} {ts : List Token}
    (h : tokenize source filename = .ok ts) :
    ∃ bs es, parse source filename = .ok (bs, es) ∧
      (es = [] ↔ Grammar.Program (ts.map Token.kind)) := by
  obtain ⟨_, t, _, -, -, -, -, -, hparse⟩ := exists_run_of_tokenize h
  refine ⟨t.statements, t.errors, hparse, ?_⟩
  constructor
  · intro hes
    rw [hes] at hparse
    obtain ⟨us, e, rfl, he, hbs⟩ := allSpelledBy_of_parse h hparse
    exact hbs.grammar he
  · intro hprogram
    obtain ⟨us, e, bs, rfl, -, hbs⟩ := hprogram.exists_spelledBy ts rfl
    have := hparse.symm.trans (parse_of_allSpelledBy h hbs)
    exact (Prod.mk.inj (Except.ok.inj this)).2

theorem parse_errors_eq_nil_iff_layout :
    let source := "tipos\nVar\n\n x: Logico = not (\n a <\n 2) y = 1\n"
    ∃ ts, tokenize source = .ok ts ∧ ∃ bs es, parse source = .ok (bs, es) ∧
      (es = [] ↔ Grammar.Program (ts.map Token.kind)) := by
  intro source
  obtain ⟨ts, hts⟩ : ∃ ts, tokenize source = .ok ts := exists_tokens (by decide +kernel)
  exact ⟨ts, hts, parse_errors_eq_nil_iff hts⟩

end SLFront
