import SLFront.Proofs.BlockRun
import SLFront.Proofs.TokenStream

/-!
# What a program reads

A program without errors has read a spelling of its blocks (`YieldsBlocks.reads`), and a spelling is
read without errors, as the blocks that it spells (`allStatements_of_allSpelledBy`). For a source
text this says what its tokens have to be: `allSpelledBy_of_parse` and `parse_of_allSpelledBy`.

What is said of a program whatever errors it has is shown for its parts, one after the other
(`YieldsBlocks.of_parts`).
-/
namespace SLFront

/-! ## Tokens inside a spelling -/

theorem Declaration.SpelledBy.isBoundary_eq_false {d : Declaration} {ts : List Token}
    (h : d.SpelledBy ts) : ∀ t ∈ ts, t.kind.isBoundary = false := by
  cases h with
  | untyped hn ha value =>
    simp only [List.forall_mem_cons]
    exact ⟨by rw [hn]; rfl, by rw [ha]; rfl, value.isBoundary_eq_false⟩
  | typed hn hc ht ha value =>
    simp only [List.forall_mem_cons]
    exact ⟨by rw [hn]; rfl, by rw [hc]; rfl, Token.Kind.isBoundary_of_isTypeName ht,
      by rw [ha]; rfl, value.isBoundary_eq_false⟩

theorem Declaration.SpelledBy.exists_cons {d : Declaration} {ts : List Token}
    (h : d.SpelledBy ts) : ∃ us, ts = d.name :: us ∧ d.name.kind = .identifier := by
  cases h with
  | untyped hn => exact ⟨_, rfl, hn⟩
  | typed hn => exact ⟨_, rfl, hn⟩

namespace Declaration.AllSpelledBy
variable {ds : List Declaration} {ts : List Token}

theorem exists_cons (h : AllSpelledBy ds ts) : ∃ t us, ts = t :: us ∧ t.kind = .identifier := by
  cases h with
  | single h =>
    obtain ⟨us, rfl, hn⟩ := h.exists_cons
    exact ⟨_, us, rfl, hn⟩
  | cons h =>
    obtain ⟨us, rfl, hn⟩ := h.exists_cons
    exact ⟨_, _, rfl, hn⟩

theorem isBoundary_eq_false (h : AllSpelledBy ds ts) : ∀ t ∈ ts, t.kind.isBoundary = false := by
  induction h with
  | single h => exact h.isBoundary_eq_false
  | cons h hbreaks _ ih =>
    simp only [List.forall_mem_append]
    exact ⟨⟨h.isBoundary_eq_false, isBoundary_of_newlines hbreaks⟩, ih⟩

end Declaration.AllSpelledBy

namespace Block.AllSpelledBy
variable {bs : List Block} {ts breaks : List Token}

theorem append (hbreaks : ∀ t ∈ breaks, t.kind = .newline) (h : AllSpelledBy bs ts) :
    AllSpelledBy bs (breaks ++ ts) := by
  induction breaks with
  | nil => exact h
  | cons b breaks ih =>
    obtain ⟨hb, hbreaks⟩ := List.forall_mem_cons.1 hbreaks
    exact .skip (.inl hb) (ih hbreaks)

/-- Behind the line breaks that it starts with, a spelling goes on with a statement. -/
theorem exists_append (h : AllSpelledBy bs ts) :
    ∃ breaks us, ts = breaks ++ us ∧ (∀ t ∈ breaks, t.kind = .newline) ∧ AllSpelledBy bs us ∧
      ∀ t ∈ us.head?, t.kind.isBoundary := by
  induction h with
  | nil => exact ⟨[], [], rfl, by simp, .nil, by simp⟩
  | @skip t bs ts ht rest ih =>
    rcases ht with ht | ht
    · obtain ⟨breaks, us, rfl, hbreaks, hus, hhead⟩ := ih
      exact ⟨t :: breaks, us, rfl, List.forall_mem_cons.2 ⟨ht, hbreaks⟩, hus, hhead⟩
    · refine ⟨[], t :: ts, rfl, by simp, .skip (.inr ht) rest, ?_⟩
      simpa using Token.Kind.isBoundary_iff.2 (.inr (.inr ht))
  | @cons b bs ts us h rest =>
    refine ⟨[], ts ++ us, rfl, by simp, .cons h rest, ?_⟩
    obtain ⟨_, _, rfl, -⟩ := h.body
    simpa using Token.Kind.isBoundary_iff.2 (.inr (.inl h.keyword))

theorem ne_endOfInput (h : AllSpelledBy bs ts) : ∀ t ∈ ts, t.kind ≠ .endOfInput := by
  induction h with
  | nil => simp
  | skip ht _ ih =>
    refine List.forall_mem_cons.2 ⟨?_, ih⟩
    rintro hend
    rw [hend] at ht
    simp [Token.Kind.isPlaceholder] at ht
  | cons h _ ih =>
    obtain ⟨breaks, us, rfl, -, hbreaks, hus⟩ := h.body
    simp only [List.cons_append, List.forall_mem_cons, List.forall_mem_append]
    exact ⟨(Token.Kind.ne_of_opensBlock h.keyword).2,
      ⟨ne_endOfInput_of_isBoundary (isBoundary_of_newlines hbreaks),
        ne_endOfInput_of_isBoundary hus.isBoundary_eq_false⟩, ih⟩

end Block.AllSpelledBy

namespace Parser
variable {s t : Parser}

/-! ## Soundness -/

/-- What is next is read first, or is still next. -/
theorem Passage.next_mem {us : List Token} {es : List SyntaxError} (h : s.Passage us es t) :
    s.next ∈ us ++ [t.next] := by
  cases us with
  | nil => simp [h.next_eq]
  | cons u us =>
    obtain ⟨rfl, -⟩ := h.reads.cons
    simp

/-- A failure records an error at a token that was read or is next. -/
theorem Fails.exists_error {kinds : List SyntaxError.Kind} (h : Fails kinds s t) :
    ∃ us e, s.Passage us [e] t ∧ e.kind ∈ .noPrefixFound :: kinds ∧
      e.token ∈ s.current :: us ++ [t.next] := by
  cases h with
  | @here ts u hu _ hf =>
    obtain ⟨vs, hvs, -⟩ := fail_eq_ok hf
    refine ⟨_, _, hu.trans hvs, List.mem_cons_self, ?_⟩
    rw [← List.cons_append, List.append_assoc]
    exact List.mem_append_left _ hu.current_mem
  | @ahead kind ts u hk hu _ hf =>
    obtain ⟨vs, hvs, -⟩ := fail_eq_ok hf
    refine ⟨_, _, hu.trans hvs, List.mem_cons_of_mem _ hk, ?_⟩
    rw [← List.cons_append, List.append_assoc]
    exact List.mem_append_right _ hvs.next_mem

theorem YieldsDeclarations.passage {ds : List Declaration} (h : YieldsDeclarations s ds t) :
    ∃ us es, s.Passage us es t ∧ (es = [] → ds = [] ∧ us = [] ∧ s.next.kind ≠ .identifier ∨
      ∃ ts breaks, us = ts ++ breaks ∧ (∀ x ∈ breaks, x.kind = .newline) ∧
        Declaration.AllSpelledBy ds ts) := by
  induction h with
  | stop hn => exact ⟨[], [], .refl _, fun _ => .inl ⟨rfl, rfl, hn⟩⟩
  | failed hn h₁ hf =>
    obtain ⟨us, e, hus, -⟩ := hf.exists_error
    exact ⟨_, _, (Passage.of_advance h₁).trans hus, by simp⟩
  | @cons s s₂ s₃ t d ds ts breaks hd hspell hb hbreaks hn _ ih =>
    obtain ⟨us, es, hus, hclean⟩ := ih
    refine ⟨_, es, (hd.trans hb).trans hus, fun hes => .inr ?_⟩
    rcases hclean hes with ⟨rfl, rfl, -⟩ | ⟨vs, breaks', rfl, hbreaks', hvs⟩
    · exact ⟨ts, breaks, List.append_nil _, hbreaks, .single hspell⟩
    · refine ⟨ts ++ breaks ++ vs, breaks', ?_, hbreaks', .cons hspell hbreaks hvs⟩
      rw [List.append_assoc (ts ++ breaks)]

theorem YieldsBlock.passage {b : Block} (h : YieldsBlock s b t) (hc : s.current.kind.opensBlock) :
    ∃ us es, s.Passage us es t ∧ (es = [] → ∃ ts breaks, s.current :: us = ts ++ breaks ∧
      (∀ x ∈ breaks, x.kind = .newline) ∧ b.SpelledBy ts) := by
  cases h with
  | @declared breaks u _ ds hb hbreaks hn rest =>
    obtain ⟨us, es, hus, hclean⟩ := rest.passage
    refine ⟨_, _, hb.trans hus, fun hes => ?_⟩
    obtain ⟨hmissing, hes⟩ := List.append_eq_nil_iff.1 hes
    rcases hclean hes with ⟨-, -, hne⟩ | ⟨ts, breaks', rfl, hbreaks', hspell⟩
    · exact absurd hn hne
    · refine ⟨s.current :: breaks ++ ts, breaks', by simp, hbreaks', hc, breaks, ts, rfl, ?_,
        hbreaks, hspell⟩
      rintro rfl
      rw [missingBreak, hb.next_eq.symm, if_neg (by rw [hn]; simp)] at hmissing
      cases hmissing
  | undeclared hb _ hf =>
    obtain ⟨us, hus, -⟩ := fail_eq_ok hf
    exact ⟨_, _, hb.trans hus, by simp⟩

/-- A program reads up to the end of input and records its blocks. If it records no errors, it has
read a spelling of the blocks. -/
theorem YieldsBlocks.reads {bs : List Block} (h : YieldsBlocks s bs t) :
    ∃ us es, s.cursor.Reads us t.cursor ∧ t.statements = s.statements ++ bs ∧
      t.errors = s.errors ++ es ∧ t.current.kind = .endOfInput ∧
      (es = [] → ∃ ts, s.current :: us = ts ++ [t.current] ∧ Block.AllSpelledBy bs ts) := by
  induction h with
  | done hc => exact ⟨[], [], .refl _, by simp, by simp, hc, fun _ => ⟨[], rfl, .nil⟩⟩
  | @skip s u v t bs hc hu hv _ ih =>
    obtain ⟨us, es, hus, hstatements, herrors, hend, hclean⟩ := ih
    have hpass := hu.trans (Passage.of_advance hv)
    refine ⟨_, es, hpass.reads.append hus, ?_, ?_, hend, fun hes => ?_⟩
    · rw [hstatements, hpass.statements]
    · rw [herrors, hpass.errors]
      simp
    · obtain ⟨ts, hts, hspell⟩ := hclean hes
      refine ⟨s.current :: ts, ?_, .skip hc hspell⟩
      rw [current_of_advance hv] at hts
      simpa using hts
  | @unexpected s u v t bs _ _ hf hv _ ih =>
    obtain ⟨us, es, hus, hstatements, herrors, hend, -⟩ := ih
    obtain ⟨vs, hvs, -⟩ := fail_eq_ok hf
    have hpass := hvs.trans (Passage.of_advance hv)
    refine ⟨_, ⟨.unexpectedExpression, s.current⟩ :: es, hpass.reads.append hus, ?_, ?_, hend,
      by simp⟩
    · rw [hstatements, hpass.statements]
    · rw [herrors, hpass.errors]
      simp
  | @block s u u' v t b bs hc hb ha hv _ ih =>
    obtain ⟨us, es, hus, hstatements, herrors, hend, hclean⟩ := ih
    obtain ⟨vs, fs, hvs, hspell⟩ := hb.passage hc
    cases ha
    have hpass := Passage.of_advance hv
    refine ⟨_, fs ++ es, hvs.reads.append (hpass.reads.append hus), ?_, ?_, hend, fun hes => ?_⟩
    · rw [hstatements, hpass.statements]
      simp [hvs.statements]
    · rw [herrors, hpass.errors]
      simp [hvs.errors]
    · obtain ⟨hfs, hes⟩ := List.append_eq_nil_iff.1 hes
      obtain ⟨ts, hts, hrest⟩ := hclean hes
      obtain ⟨ts', breaks, hts', hbreaks, hblock⟩ := hspell hfs
      refine ⟨ts' ++ (breaks ++ ts), ?_, .cons hblock (hrest.append hbreaks)⟩
      rw [current_of_advance hv] at hts
      rw [← List.cons_append, hts', List.append_assoc, List.append_assoc, List.append_assoc]
      exact congrArg (fun l => ts' ++ (breaks ++ l)) hts

/-- What holds of what is skipped between the blocks, and of each block, and is kept where one part
follows the other, holds of a program. Each part is given with the token that is next behind it. -/
theorem YieldsBlocks.of_parts {P : List Token → Token → List Block → List SyntaxError → Prop}
    {bs : List Block} (h : YieldsBlocks s bs t)
    (hskip : ∀ {ts next es}, (∀ x ∈ ts, x.kind.opensBlock = false) →
      (∀ e ∈ es, e.kind = .unexpectedExpression) → P ts next [] es)
    (hblock : ∀ {s t b}, YieldsBlock s b t → s.current.kind.opensBlock →
      ∃ us es, s.Passage us es t ∧ P (s.current :: us) t.next [b] es)
    (happend : ∀ {ts us next next' bs cs es fs}, P ts next bs es → P (next :: us) next' cs fs →
      P (ts ++ next :: us) next' (bs ++ cs) (es ++ fs)) :
    ∃ us es, s.cursor.Reads us t.cursor ∧ t.errors = s.errors ++ es ∧
      P (s.current :: us) t.next bs es := by
  induction h with
  | @done s hc =>
    exact ⟨[], [], .refl _, by simp, hskip (by simp [hc, Token.Kind.opensBlock]) (by simp)⟩
  | @skip s u v t bs hc hu hv _ ih =>
    obtain ⟨us, es, hus, herrors, hrest⟩ := ih
    have hpass := hu.trans (Passage.of_advance hv)
    have hopens : s.current.kind.opensBlock = false := by
      rcases hc with hc | hc
      · rw [hc]
        rfl
      · exact (Token.Kind.ne_newline_of_isPlaceholder hc).2
    have hfirst : P [s.current] u.next [] [] := hskip (by simpa using hopens) (by simp)
    rw [current_of_advance hv] at hrest
    refine ⟨_, es, hpass.reads.append hus, ?_, happend hfirst hrest⟩
    rw [herrors, hpass.errors]
    simp
  | @unexpected s u v t bs hc _ hf hv _ ih =>
    obtain ⟨us, es, hus, herrors, hrest⟩ := ih
    obtain ⟨vs, hvs, hskipped, -⟩ := fail_eq_ok hf
    have hpass := hvs.trans (Passage.of_advance hv)
    have hread : ∀ x ∈ s.current :: vs, x.kind.isBoundary = false :=
      List.forall_mem_cons.2 ⟨hc, hskipped⟩
    have hfirst : P (s.current :: vs) u.next [] [⟨.unexpectedExpression, s.current⟩] :=
      hskip (fun x hx => Token.Kind.opensBlock_of_isBoundary_eq_false (hread x hx)) (by simp)
    rw [current_of_advance hv] at hrest
    refine ⟨_, ⟨.unexpectedExpression, s.current⟩ :: es, hpass.reads.append hus, ?_, ?_⟩
    · rw [herrors, hpass.errors]
      simp
    · simpa using happend hfirst hrest
  | @block s u u' v t b bs hc hb ha hv _ ih =>
    obtain ⟨us, es, hus, herrors, hrest⟩ := ih
    obtain ⟨vs, fs, hvs, hfirst⟩ := hblock hb hc
    cases ha
    have hpass := Passage.of_advance hv
    rw [current_of_advance hv] at hrest
    refine ⟨_, fs ++ es, hvs.reads.append (hpass.reads.append hus), ?_, ?_⟩
    · rw [herrors, hpass.errors]
      simp [hvs.errors]
    · simpa using happend hfirst hrest

/-! ## Completeness -/

section
variable {us ts breaks : List Token} {c : Cursor}

/-- The value of a declaration is read behind its equal sign. -/
theorem declarationValue_of_spelledBy {name assign : Token} {typeName : Option Token} {e : Expr}
    (ha : assign.kind = .symbol .assign) (h : e.SpelledBy Precedence.lowest.level ts)
    (hd : s.cursor.Reads (assign :: ts) c) (hnone : c.next.kind.precedence? = none) :
    declarationValue name typeName s = .ok (some ⟨name, typeName, some e⟩) (s.moved c) := by
  obtain ⟨x, xs, _, rfl, -⟩ := h.exists_cons
  obtain ⟨rfl, c₁, h₁, -, hd⟩ := hd.cons
  obtain ⟨hx, c₂, h₂, hcurrent, hd⟩ := hd.cons
  have hvalue := IsReadFrom.eq_ok (isReadFrom_of_spelledBy h) (Int.le_refl _) hd
    (by rw [hcurrent]) (fun q hq => by rw [hnone] at hq; cases hq) s
  rw [next_cursor] at ha
  show (if s.next.kind = .symbol .assign then _ else _ : Parse (Option Declaration)) s = _
  rw [if_pos ha, bind_of_ok (advance_of_step h₁), bind_of_ok (advance_of_step (s := s.moved c₁) h₂),
    moved_moved, bind_of_ok hvalue]
  rfl

theorem declaration_of_spelledBy {d : Declaration} (h : d.SpelledBy ts) (hd : s.cursor.Reads us c)
    (hts : s.current :: us = ts) (hnone : c.next.kind.precedence? = none) :
    declaration s = .ok (some d) (s.moved c) := by
  show (if s.next.kind = .symbol .colon then _ else _ : Parse (Option Declaration)) s = _
  cases h with
  | untyped hn ha value =>
    obtain ⟨rfl, rfl⟩ := List.cons.inj hts
    obtain ⟨hnext, -⟩ := hd.cons
    have hc : s.next.kind ≠ .symbol .colon := by
      rw [show s.next = _ from hnext, ha]
      decide
    rw [if_neg hc]
    exact declarationValue_of_spelledBy ha value hd hnone
  | typed hn hc ht ha value =>
    obtain ⟨rfl, rfl⟩ := List.cons.inj hts
    obtain ⟨rfl, c₁, h₁, -, hd⟩ := hd.cons
    obtain ⟨rfl, c₂, h₂, -, hd⟩ := hd.cons
    rw [next_cursor] at hc
    rw [if_pos hc, bind_of_ok (advance_of_step h₁)]
    show (if c₁.next.kind.isTypeName then _ else _ : Parse (Option Declaration)) (s.moved c₁) = _
    rw [if_pos ht, bind_of_ok (advance_of_step (s := s.moved c₁) h₂), moved_moved]
    exact declarationValue_of_spelledBy (s := s.moved c₂) ha value hd hnone

/-- One more declaration is read, with the line breaks behind it. -/
theorem declarations_eq_cons {d : Declaration} {ds : List Declaration} {c₁ c₂ : Cursor}
    (h : d.SpelledBy ts) (hd : s.cursor.Reads ts c₁) (hskip : c₁.Reads breaks c₂)
    (hbreaks : ∀ t ∈ breaks, t.kind = .newline) (hn : c₂.next.kind ≠ .newline)
    (hnone : c₂.next.kind.precedence? = none)
    (rest : declarations (s.moved c₂) = .ok ds (s.moved c)) :
    declarations s = .ok (d :: ds) (s.moved c) := by
  obtain ⟨us, rfl, hname⟩ := h.exists_cons
  obtain ⟨hnext, c₀, h₀, hcurrent, hd⟩ := hd.cons
  have hi : s.next.kind = .identifier := by
    rw [← hname, ← hnext]
    rfl
  -- The value ends in front of a line break, or of what follows the declaration.
  have hend : c₁.next.kind.precedence? = none := by
    cases hskip with
    | refl => exact hnone
    | step _ _ =>
      rw [hbreaks _ List.mem_cons_self]
      rfl
  have hdeclaration : declaration (s.moved c₀) = .ok (some d) (s.moved c₁) :=
    declaration_of_spelledBy (s := s.moved c₀) h hd (by rw [current_moved, hcurrent]) hend
  have hnewlines : consumeNewlines (s.moved c₁) = .ok () (s.moved c₂) :=
    consumeNewlines_of_reads (s := s.moved c₁) hskip hbreaks hn
  rw [declarations_eq, if_pos hi, bind_of_ok (advance_of_step h₀), bind_of_ok hdeclaration]
  show (consumeNewlines >>= _) (s.moved c₁) = _
  rw [bind_of_ok hnewlines, bind_of_ok rest]
  rfl

/-- Declarations are read up to the statement that follows. -/
theorem declarations_of_allSpelledBy {ds : List Declaration}
    (h : Declaration.AllSpelledBy ds ts) (hd : s.cursor.Reads (ts ++ breaks) c)
    (hbreaks : ∀ t ∈ breaks, t.kind = .newline) (hc : c.next.kind.isBoundary) :
    declarations s = .ok ds (s.moved c) := by
  induction h generalizing s with
  | single h =>
    obtain ⟨c₁, hd, hskip⟩ := hd.split
    refine declarations_eq_cons h hd hskip hbreaks (Token.Kind.ne_newline_of_isBoundary hc)
      (Token.Kind.precedence?_of_isBoundary hc) ?_
    rw [declarations_eq, next_moved, if_neg (Token.Kind.ne_identifier_of_isBoundary hc)]
    rfl
  | cons h hbreaks' rest ih =>
    rw [List.append_assoc] at hd
    obtain ⟨c₂, hfirst, hrest⟩ := hd.split
    obtain ⟨c₁, hfirst, hskip⟩ := hfirst.split
    obtain ⟨x, xs, rfl, hx⟩ := rest.exists_cons
    have hnext : c₂.next = x := hrest.cons.1
    refine declarations_eq_cons h hfirst hskip hbreaks' ?_ ?_ (ih (s := s.moved c₂) hrest)
    · rw [hnext, hx]
      decide
    · rw [hnext, hx]
      rfl

/-- A block is read up to the statement that follows. -/
theorem block_of_spelledBy {b : Block} (h : b.SpelledBy ts) (hd : s.cursor.Reads us c)
    (hts : s.current :: us = ts ++ breaks) (hbreaks : ∀ t ∈ breaks, t.kind = .newline)
    (hc : c.next.kind.isBoundary) : block s = .ok b (s.moved c) := by
  obtain ⟨breaks', vs, rfl, hne, hbreaks', hspell⟩ := h.body
  simp only [List.cons_append, List.append_assoc] at hts
  obtain ⟨hkeyword, rfl⟩ := List.cons.inj hts
  obtain ⟨c₁, hskip, hd⟩ := hd.split
  obtain ⟨x, xs, rfl, hx⟩ := hspell.exists_cons
  have hnext : c₁.next = x := hd.cons.1
  have hnewline : s.next.kind = .newline := by
    cases hskip with
    | refl => exact absurd rfl hne
    | step _ _ => exact hbreaks' _ List.mem_cons_self
  have hnewlines : consumeNewlines s = .ok () (s.moved c₁) := by
    refine consumeNewlines_of_reads hskip hbreaks' ?_
    rw [hnext, hx]
    decide
  have hdeclarations := declarations_of_allSpelledBy (s := s.moved c₁) hspell hd hbreaks hc
  show (if s.next.kind = .newline then _ else _ : Parse Block) s = _
  rw [if_pos hnewline, blockBody, bind_of_ok hnewlines]
  show (if c₁.next.kind = .identifier then _ else _ : Parse Block) (s.moved c₁) = _
  rw [if_pos (by rw [hnext, hx]), bind_of_ok hdeclarations, hkeyword]
  rfl

theorem allStatements_of_skip (hc : s.current.kind = .newline ∨ s.current.kind.isPlaceholder)
    (hs : s.cursor.step? = some c) :
    ∃ t, allStatements s = allStatements t ∧ t.cursor = c ∧ t.statements = s.statements ∧
      t.errors = s.errors := by
  have hend : s.current.kind ≠ .endOfInput := by
    intro hk
    rw [hk] at hc
    simp [Token.Kind.isPlaceholder] at hc
  obtain ⟨u, hu, hcursor, hstatements, herrors⟩ : ∃ u, statement s = .ok none u ∧
      u.cursor = s.cursor ∧ u.statements = s.statements ∧ u.errors = s.errors := by
    unfold statement
    show ∃ u, (if s.current.kind = .newline then _ else _ : Parse (Option Block)) s = _ ∧ _
    rcases hc with hc | hc
    · rw [if_pos hc]
      exact ⟨s, rfl, rfl, rfl, rfl⟩
    · obtain ⟨hnewline, hopens⟩ := Token.Kind.ne_newline_of_isPlaceholder hc
      rw [if_neg hnewline, if_neg (by simp [hopens]), if_pos hc]
      exact ⟨_, rfl, rfl, rfl, rfl⟩
  refine ⟨u.moved c, ?_, rfl, hstatements, herrors⟩
  rw [allStatements_eq, if_neg hend, bind_of_ok hu]
  exact bind_of_ok (advance_of_step (hcursor ▸ hs))

theorem allStatements_of_block {b : Block} {c₁ : Cursor} (hc : s.current.kind.opensBlock)
    (hb : block s = .ok b (s.moved c₁)) (hs : c₁.step? = some c) :
    allStatements s =
      allStatements (({ s with statements := s.statements ++ [b] } : Parser).moved c) := by
  obtain ⟨hnewline, hend⟩ := Token.Kind.ne_of_opensBlock hc
  have hstatement : statement s = .ok (some b) (s.moved c₁) := by
    show (if s.current.kind = .newline then _ else _ : Parse (Option Block)) s = _
    rw [if_neg hnewline, if_pos hc, bind_of_ok hb]
    rfl
  rw [allStatements_eq, if_neg hend, bind_of_ok hstatement]
  exact bind_of_ok (advance_of_step
    (s := ({ s with statements := s.statements ++ [b] } : Parser).moved c₁) hs)

/-- A spelling of blocks up to the end of input is read without errors. -/
theorem allStatements_of_allSpelledBy {bs : List Block} (h : Block.AllSpelledBy bs ts)
    (hd : s.cursor.Reads us c) (hts : s.current :: us = ts ++ [c.current])
    (hend : c.current.kind = .endOfInput) :
    ∃ t, allStatements s = .ok () t ∧ t.statements = s.statements ++ bs ∧ t.errors = s.errors := by
  induction hl : ts.length using Nat.strongRecOn generalizing s ts us bs with
  | _ n ih =>
    subst hl
    cases h with
    | nil =>
      obtain ⟨hc, rfl⟩ := List.cons.inj hts
      rw [allStatements_eq, if_pos (by rw [hc, hend])]
      exact ⟨s, rfl, by simp, rfl⟩
    | @skip x bs ts hx rest =>
      obtain ⟨rfl, rfl⟩ := List.cons.inj hts
      obtain ⟨y, ys, hys⟩ : ∃ y ys, ts ++ [c.current] = y :: ys := by cases ts <;> simp
      have hcons : s.cursor.Reads (y :: ys) c := hys ▸ hd
      obtain ⟨-, c₁, h₁, hcurrent, hrest⟩ := hcons.cons
      obtain ⟨u, hu, rfl, hstatements, herrors⟩ := allStatements_of_skip hx h₁
      obtain ⟨t, ht, htstatements, hterrors⟩ :=
        ih ts.length (by simp) rest hrest (by rw [hys, ← hcurrent]; rfl) rfl
      exact ⟨t, hu.trans ht, by rw [htstatements, hstatements], by rw [hterrors, herrors]⟩
    | @cons b bs ts ts' hb rest =>
      obtain ⟨breaks, vs, rfl, hbreaks, hvs, hhead⟩ := rest.exists_append
      obtain ⟨breaks', us', rfl, -⟩ := hb.body
      obtain ⟨y, ys, hys, hy⟩ : ∃ y ys, vs ++ [c.current] = y :: ys ∧ y.kind.isBoundary := by
        cases vs with
        | nil => exact ⟨_, _, rfl, by rw [hend]; rfl⟩
        | cons v vs => exact ⟨_, _, rfl, hhead v rfl⟩
      simp only [List.cons_append, List.append_assoc, hys] at hts
      obtain ⟨hkeyword, rfl⟩ := List.cons.inj hts
      have hd' : s.cursor.Reads ((breaks' ++ us' ++ breaks) ++ y :: ys) c := by
        simpa only [List.append_assoc] using hd
      obtain ⟨c₁, hblock, hrest⟩ := hd'.split
      obtain ⟨hnext, c₂, h₂, hcurrent, hrest⟩ := hrest.cons
      have hb' : block s = .ok b (s.moved c₁) := by
        refine block_of_spelledBy hb hblock ?_ hbreaks (by rw [hnext, hy])
        rw [hkeyword]
        rfl
      rw [allStatements_of_block (by rw [hkeyword]; exact hb.keyword) hb' h₂]
      obtain ⟨t, ht, hstatements, herrors⟩ := ih vs.length (by simp; omega)
        (s := ({ s with statements := s.statements ++ [b] } : Parser).moved c₂) hvs hrest
        (by rw [hys, ← hcurrent]; rfl) rfl
      exact ⟨t, ht, by simpa using hstatements, herrors⟩

end

end Parser

/-! ## Source texts -/

section
variable {source filename : String} {ts us : List Token} {bs : List Block} {e : Token}

/-- Where the source text has tokens, parsing it runs through all of them. -/
theorem exists_run_of_tokenize (h : tokenize source filename = .ok ts) :
    ∃ s t bs, s.cursor.Upcoming ts ∧ s.errors = [] ∧ s.statements = [] ∧
      Parser.allStatements s = .ok () t ∧ Parser.YieldsBlocks s bs t ∧
      parse source filename = .ok (t.statements, t.errors) := by
  obtain ⟨s, l, hstart, hupcoming, hstatements, herrors, -⟩ := start_of_tokenize h
  obtain ⟨_, t, ht⟩ := (Parser.walks_allStatements s).exists_ok hupcoming.clean
  obtain ⟨bs, hbs⟩ := Parser.yieldsBlocks_of_eq_ok ht
  exact ⟨s, t, bs, hupcoming, herrors, hstatements, ht, hbs,
    (parse_eq _ _).trans (Lexer.parse_of_allStatements hstart ht)⟩

/-- A program that is parsed without errors is a spelling of its blocks. -/
theorem allSpelledBy_of_parse (h : tokenize source filename = .ok ts)
    (hp : parse source filename = .ok (bs, [])) :
    ∃ us e, ts = us ++ [e] ∧ e.kind = .endOfInput ∧ Block.AllSpelledBy bs us := by
  obtain ⟨s, t, bs', hupcoming, herrors, hstatements, -, hyields, hparse⟩ :=
    exists_run_of_tokenize h
  obtain ⟨hbs, hnone⟩ := Prod.mk.inj (Except.ok.inj (hparse.symm.trans hp))
  obtain ⟨us, es, hreads, hstatements', herrors', hend, hclean⟩ := hyields.reads
  rw [hnone, herrors, List.nil_append] at herrors'
  rw [hbs, hstatements, List.nil_append] at hstatements'
  subst hstatements'
  obtain ⟨vs, hvs, hspell⟩ := hclean herrors'.symm
  refine ⟨vs, t.current, ?_, hend, hspell⟩
  rw [← hvs]
  refine hupcoming.eq_cons hreads hend ?_
  rw [Parser.current_cursor, hvs, List.dropLast_concat]
  exact hspell.ne_endOfInput

/-- A spelling of blocks is parsed without errors, as these blocks. -/
theorem parse_of_allSpelledBy (h : tokenize source filename = .ok (us ++ [e]))
    (hs : Block.AllSpelledBy bs us) : parse source filename = .ok (bs, []) := by
  obtain ⟨s, t, -, hupcoming, herrors, hstatements, ht, -, hparse⟩ := exists_run_of_tokenize h
  obtain ⟨vs, c, hvs, hd, hend, -⟩ := hupcoming.exists_reads
  have he : [c.current] = [e] :=
    (List.append_inj' (hd.dropLast_append.trans hvs.symm) rfl).2
  rw [← he] at hvs
  obtain ⟨t', ht', hstatements', herrors'⟩ :=
    Parser.allStatements_of_allSpelledBy hs hd hvs.symm hend
  cases ht.symm.trans ht'
  rw [hparse, hstatements', herrors', hstatements, herrors]
  rfl

end
end SLFront
