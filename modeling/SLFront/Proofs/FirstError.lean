import SLFront.Proofs.Outlook
import SLFront.Proofs.ProgramReading

/-!
# The first error

As long as the parser has recorded no error, the tokens that it has read have an outlook; and where
it records the first one, the token ahead of it is one that may not come there. Only a line break
that is missing behind a block keyword is an error at the keyword, one token before the one that may
not come.

Every routine is followed from where it starts to where it ends or records its first error
(`Parser.FirstError`, `Parser.Progress`), up to the statements of a program
(`Parser.firstError_of_allStatements`). For a source text, its first error has found the first of
its tokens that may not come where it stands (`detects_of_parse`).

## Main definitions

* `Cursor.Shows` — tokens that come behind the current one.
* `SyntaxError.Detects` — the error has found the first token that may not come.
* `Parser.FirstError`, `Parser.Progress` — what a routine has recorded and read, from an outlook on.
-/
namespace SLFront

/-- The tokens behind the current one start with these. -/
inductive Cursor.Shows : Cursor → List Token → Prop
  | next (c : Cursor) : Shows c [c.next]
  | step {c d : Cursor} {ts : List Token} (hs : c.step? = some d) (rest : Shows d ts) :
    Shows c (c.next :: ts)

/-- Among the tokens `ts`, which stand before this outlook, the error has found the first one that
may not come where it stands. A missing line break is an error at the block keyword in front of that
token. -/
inductive SyntaxError.Detects (e : SyntaxError) (q : Outlook) (ts : List Token) : Prop
  | atToken (before : List Token) {after : List Token} {q' : Outlook}
    (hk : e.kind ≠ .expectedNewLine) (hts : ts = before ++ e.token :: after)
    (hrun : q.run before = some q') (htakes : q'.takes e.token.kind = false)
  | behindKeyword (before : List Token) {after : List Token} {x : Token} {q' : Outlook}
    (hk : e.kind = .expectedNewLine) (hopens : e.token.kind.opensBlock)
    (hts : ts = before ++ e.token :: x :: after) (hrun : q.run (before ++ [e.token]) = some q')
    (htakes : q'.takes x.kind = false)

theorem SyntaxError.Detects.of_run {e : SyntaxError} {q q' : Outlook} {ts us : List Token}
    (h : e.Detects q' us) (hrun : q.run ts = some q') : e.Detects q (ts ++ us) := by
  cases h with
  | atToken _ hk hus hrun' htakes =>
    exact .atToken _ hk (by rw [hus, List.append_assoc]) ((Outlook.run_append hrun).trans hrun')
      htakes
  | behindKeyword _ hk hopens hus hrun' htakes =>
    refine .behindKeyword _ hk hopens (by rw [hus, List.append_assoc]) ?_ htakes
    rw [List.append_assoc, Outlook.run_append hrun, hrun']

/-- Where an error has found a token that may not come, there is one. -/
theorem SyntaxError.Detects.exists_token {e : SyntaxError} {q : Outlook} {ts : List Token}
    (h : e.Detects q ts) : ∃ before x after q', ts = before ++ x :: after ∧
      q.run before = some q' ∧ q'.takes x.kind = false := by
  cases h with
  | atToken _ _ hts hrun htakes => exact ⟨_, _, _, _, hts, hrun, htakes⟩
  | behindKeyword _ _ _ hts hrun htakes =>
    exact ⟨_, _, _, _, hts.trans (List.append_cons ..), hrun, htakes⟩

theorem Outlook.takes_eq_false {q : Outlook} {k : Token.Kind} (h : q.step? k = none)
    (hq : k = .endOfInput → q.accepts = false) : q.takes k = false := by
  by_cases hk : k = .endOfInput
  · simp [takes, h, hq hk]
  · simp [takes, h, hk]

theorem Cursor.Reads.shows {c d : Cursor} {us ts : List Token} (h : c.Reads us d)
    (hd : d.Shows ts) : c.Shows (us ++ ts) := by
  induction h with
  | refl => exact hd
  | step hs _ ih => exact .step hs (ih hd)

/-- Tokens that are shown lie ahead, as long as the input does not end. -/
theorem Cursor.Upcoming.exists_append_of_shows {c : Cursor} {ws ts before after : List Token}
    {x : Token} (h : c.Upcoming ws) (hts : c.Shows ts)
    (hsplit : c.current :: ts = before ++ x :: after)
    (hbefore : ∀ y ∈ before, y.kind ≠ .endOfInput) :
    ∃ after', ws = before ++ x :: after' := by
  induction before generalizing c ws ts with
  | nil =>
    obtain ⟨us, hus⟩ := h.exists_cons
    obtain ⟨rfl, -⟩ := List.cons.inj hsplit
    exact ⟨us, hus⟩
  | cons y before ih =>
    obtain ⟨hy, hrest⟩ := List.forall_mem_cons.1 hbefore
    obtain ⟨rfl, hts'⟩ := List.cons.inj hsplit
    cases h with
    | last hend => exact absurd hend hy
    | @cons _ d _ _ hs rest =>
      have hcurrent := current_of_step hs
      cases hts with
      | next =>
        -- Only the next token is shown.
        obtain ⟨us, rfl⟩ := rest.exists_cons
        obtain ⟨rfl, hx⟩ : before = [] ∧ x = c.next := by
          cases before with
          | nil => exact ⟨rfl, (List.cons.inj hts').1.symm⟩
          | cons _ _ => simp at hts'
        exact ⟨us, by rw [hcurrent, hx]; rfl⟩
      | step hs' hd =>
        obtain rfl := Option.some.inj (hs.symm.trans hs')
        obtain ⟨after', rfl⟩ := ih rest hd (by rw [hcurrent]; exact hts') hrest
        exact ⟨after', rfl⟩

/-! ## Errors against outlooks -/

namespace Parser
variable {s t u : Parser} {q q' : Outlook} {ws ws' us : List Token} {kind : SyntaxError.Kind}

/-- The first error that is recorded from `s` to `t` has found the first token that may not come.
The outlook is that in front of `ws`, which are the last of the tokens up to the current one. -/
def FirstError (q : Outlook) (ws : List Token) (s t : Parser) : Prop :=
  ∃ e es ts, t.errors = s.errors ++ e :: es ∧ s.cursor.Shows ts ∧ e.Detects q (ws ++ ts)

namespace FirstError

/-- What is read without an error comes before the first error. -/
theorem of_reads (h : FirstError q' ws' u t) (hu : s.cursor.Reads us u.cursor)
    (herrors : u.errors = s.errors) (vs : List Token) (heq : ws ++ us = vs ++ ws')
    (hrun : q.run vs = some q') : FirstError q ws s t := by
  obtain ⟨e, es, ts, hes, hts, he⟩ := h
  refine ⟨e, es, us ++ ts, by rw [hes, herrors], hu.shows hts, ?_⟩
  rw [← List.append_assoc, heq, List.append_assoc]
  exact he.of_run hrun

theorem of_passage (h : FirstError q' ws' u t) (hu : s.Passage us [] u) (vs : List Token)
    (heq : ws ++ us = vs ++ ws') (hrun : q.run vs = some q') : FirstError q ws s t :=
  h.of_reads hu.reads (by rw [hu.errors, List.append_nil]) vs heq hrun

/-- Errors that come later do not matter. -/
theorem of_errors {fs : List SyntaxError} (h : FirstError q ws s u)
    (ht : t.errors = u.errors ++ fs) : FirstError q ws s t := by
  obtain ⟨e, es, ts, hes, hts, he⟩ := h
  exact ⟨e, es ++ fs, ts, by rw [ht, hes, List.append_assoc]; rfl, hts, he⟩

/-- A failure at the next token, which may not come. -/
theorem of_next (hf : fail kind s.next s = .ok () t) (hk : kind ≠ .expectedNewLine)
    (h : q.takes s.next.kind = false) : FirstError q [] s t := by
  obtain ⟨ts, hts, -⟩ := fail_eq_ok hf
  exact ⟨_, [], _, hts.errors, .next _, .atToken [] hk rfl rfl h⟩

/-- A failure at the current token, which may not come. -/
theorem of_current (hf : fail kind s.current s = .ok () t) (hk : kind ≠ .expectedNewLine)
    (h : q.takes s.current.kind = false) : FirstError q [s.current] s t := by
  obtain ⟨ts, hts, -⟩ := fail_eq_ok hf
  exact ⟨_, [], _, hts.errors, .next _, .atToken [] hk rfl rfl h⟩

end FirstError

/-! ## Expressions -/

theorem precedence?_of_noneTighter (h : NoneTighter Precedence.lowest.level s) :
    s.next.kind.precedence? = none := by
  cases hq : s.next.kind.precedence? with
  | none => rfl
  | some q =>
    have hle : q.level ≤ 0 := h q hq
    have := (Token.Kind.level_of_precedence? hq).1
    omega

/-- How a task fails. An operand is looked for at the current token, an operator behind it. -/
def Task.FirstErrorFrom : Task → Parser → Parser → Prop
  | .expression _, s, t => ∀ (d : Nat) (b : Bool), (b → s.current.kind ≠ .newline) →
    FirstError (.operand d b) [s.current] s t
  | .operators _ _, s, t => ∀ d : Nat, FirstError (.operator d) [] s t

theorem Task.Yields.firstError {task : Task} {r : Option Expr} (h : task.Yields s r t) :
    r = none → task.FirstErrorFrom s t := by
  induction h with
  | stop => rintro ⟨⟩
  | noPrefix ho hf =>
    intro _ d b hb
    exact .of_current hf (by simp)
      (Outlook.takes_eq_false (Outlook.step?_operand_of_none ho hb) fun _ => rfl)
  | identifier ho _ ih =>
    intro hr d b _
    exact (ih hr d).of_passage (.refl _) _ rfl (Outlook.run_cons (Outlook.step?_operand ho))
  | number ho _ ih =>
    intro hr d b _
    exact (ih hr d).of_passage (.refl _) _ rfl (Outlook.run_cons (Outlook.step?_operand ho))
  | @prefixFailed p s s₁ t ho h₁ _ ih =>
    intro hr d b _
    refine (ih hr d false (by simp)).of_passage (.of_advance h₁) [s.current] ?_
      (Outlook.run_cons (Outlook.step?_operand ho))
    rw [current_of_advance h₁]
  | @prefixOp p s s₁ s₂ t right r ho h₁ operand _ _ ih =>
    intro hr d b _
    obtain ⟨ts, hts, hspell, -⟩ := operand.finds _ rfl
    refine (ih hr d).of_passage ((Passage.of_advance h₁).trans hts)
      (s.current :: s₁.current :: ts) ?_
      (Outlook.run_of_spelledBy (.prefixOp (p := 0) ho hspell) d b)
    simp [current_of_advance h₁]
  | @groupFailed p s s₁ s₂ t ho h₁ h₂ _ ih =>
    intro hr d b _
    obtain ⟨breaks, hbreaks, hnewlines, hne⟩ := passage_of_skip h₁ h₂
    exact (ih hr (d + 1) true fun _ => hne).of_passage hbreaks (s.current :: breaks) (by simp)
      (Outlook.run_group ho hnewlines)
  | @groupOpen p s s₁ s₂ s₃ t e ho h₁ h₂ inner hn hf _ =>
    intro _ d b _
    obtain ⟨breaks, hbreaks, hnewlines, -⟩ := passage_of_skip h₁ h₂
    obtain ⟨ts, hts, hspell, hstop⟩ := inner.finds _ rfl
    have hnone := Outlook.step?_operator_succ (d := d) (precedence?_of_noneTighter hstop) hn
    have hnext : FirstError (.operator (d + 1)) [] s₃ t :=
      .of_next hf (by simp) (Outlook.takes_eq_false hnone fun _ => rfl)
    refine hnext.of_passage (hbreaks.trans hts) (s.current :: breaks ++ s₂.current :: ts)
      (by simp) ?_
    rw [Outlook.run_append (Outlook.run_group ho hnewlines), Outlook.run_of_spelledBy hspell]
  | @group p s s₁ s₂ s₃ s₄ t e r ho h₁ h₂ inner hn h₄ _ _ ih =>
    intro hr d b _
    obtain ⟨breaks, hbreaks, hnewlines, -⟩ := passage_of_skip h₁ h₂
    obtain ⟨ts, hts, hspell, -⟩ := inner.finds _ rfl
    have hgroup := Expr.SpelledBy.group (p := 0) (Token.Kind.opening?_eq_group ho) hnewlines
      hspell hn
    exact (ih hr d).of_passage ((hbreaks.trans hts).trans (Passage.of_advance h₄)) _ (by simp)
      (Outlook.run_of_spelledBy hgroup d b)
  | @infixFailed p q left s s₁ s₂ s₃ t hq _ h₁ h₂ h₃ _ ih =>
    intro hr d
    obtain ⟨breaks, hbreaks, hnewlines, hne⟩ := passage_of_skip h₂ h₃
    exact (ih hr d true fun _ => hne).of_passage ((Passage.of_advance h₁).trans hbreaks)
      (s.next :: breaks) (by simp) (Outlook.run_operator hq hnewlines)
  | @infixOp p q left right s s₁ s₂ s₃ s₄ t r hq _ h₁ h₂ h₃ operand _ _ ih =>
    intro hr d
    obtain ⟨breaks, hbreaks, hnewlines, -⟩ := passage_of_skip h₂ h₃
    obtain ⟨ts, hts, hspell, -⟩ := operand.finds _ rfl
    refine (ih hr d).of_passage (((Passage.of_advance h₁).trans hbreaks).trans hts)
      (s.next :: breaks ++ s₃.current :: ts) (by simp) ?_
    rw [Outlook.run_append (Outlook.run_operator hq hnewlines), Outlook.run_of_spelledBy hspell]

/-! ## Declarations -/

section
variable {name : Token} {typeName : Option Token}

theorem firstError_declarationValue (h : declarationValue name typeName s = .ok none t)
    (hq : q.step? (.symbol .assign) = some (.operand 0 false))
    (hstop : s.next.kind ≠ .symbol .assign → q.takes s.next.kind = false) :
    FirstError q [] s t := by
  rcases declarationValue_eq_ok h with ⟨ha, u, value, hu, hvalue, hnone⟩ | ⟨ha, -, hf⟩
  · obtain rfl := Option.map_eq_none_iff.1 hnone.symm
    have hassign : q.step? s.next.kind = some (.operand 0 false) := by rw [ha, hq]
    have hfirst := (yields_of_eq_ok.1 _ _ _ _ hvalue).firstError rfl 0 false (by simp)
    exact hfirst.of_passage hu [s.next] rfl (Outlook.run_cons hassign)
  · exact .of_next hf (by simp) (hstop ha)

theorem firstError_declaration (h : declaration s = .ok none t) : FirstError .name [] s t := by
  have hcolon : s.next.kind = .symbol .colon → Outlook.name.step? s.next.kind = some .colon :=
    fun hc => by rw [hc]; rfl
  rcases declaration_eq_ok h with ⟨hc, u, hu, ht, h⟩ | ⟨hc, u, hu, ht, -, hf⟩ | ⟨hc, h⟩
  · have htype : Outlook.colon.step? u.current.kind = some .typed := if_pos ht
    have hvalue : FirstError .typed [] u t := firstError_declarationValue h rfl fun ha =>
      Outlook.takes_eq_false (if_neg ha) fun _ => rfl
    refine hvalue.of_passage hu [s.next, u.current] rfl ?_
    rw [Outlook.run_cons (hcolon hc), Outlook.run_cons htype, Outlook.run_nil]
  · have htype : FirstError .colon [] u t :=
      .of_next hf (by simp) (Outlook.takes_eq_false (if_neg ht) fun _ => rfl)
    exact htype.of_passage hu [s.next] rfl (Outlook.run_cons (hcolon hc))
  · exact firstError_declarationValue h rfl fun ha =>
      Outlook.takes_eq_false ((if_neg hc).trans (if_neg ha)) fun _ => rfl

end

/-- A routine has failed, or what it has read leads to a place between statements. -/
inductive Progress (q : Outlook) (ws : List Token) (s t : Parser) : Prop
  | failed (h : FirstError q ws s t)
  | clean {us : List Token} {q' : Outlook} (hus : s.Passage us [] t)
    (hrun : q.run (ws ++ us) = some q') (hq' : q'.IsBetween t.next.kind)

theorem Progress.of_passage (h : Progress q' [] u t) (hu : s.Passage us [] u)
    (hrun : q.run (ws ++ us) = some q') : Progress q ws s t := by
  cases h with
  | failed h => exact .failed (h.of_passage hu _ (List.append_nil _).symm hrun)
  | clean hvs hrun' hq' =>
    refine .clean (hu.trans hvs) ?_ hq'
    rw [← List.append_assoc, Outlook.run_append hrun]
    exact hrun'

theorem progress_declarations {ds : List Declaration} (h : declarations s = .ok ds t)
    (hname : q.step? .identifier = some .name)
    (hq : s.next.kind ≠ .identifier → q.IsBetween s.next.kind) : Progress q [] s t := by
  induction hr : s.remaining using Nat.strongRecOn generalizing s ds q with
  | _ n ih =>
    subst hr
    obtain ⟨hn, -, rfl⟩ | ⟨hn, u, hu, hrest⟩ := declarations_eq_ok h
    · exact .clean (.refl _) rfl (hq hn)
    have hcurrent := current_of_advance hu
    rcases hrest with ⟨-, hnone⟩ | ⟨d, ds, v, w, -, hd, hw, lt, hds⟩
    · have hidentifier : q.step? s.next.kind = some .name := by rw [hn, hname]
      exact .failed ((firstError_declaration hnone).of_passage (.of_advance hu) [s.next] rfl
        (Outlook.run_cons hidentifier))
    · obtain ⟨ts, hts, hspell, hstop⟩ := declaration_eq_ok_some hd (by rw [hcurrent, hn])
      obtain ⟨breaks, hb, hbreaks, hne⟩ := consumeNewlines_eq_ok hw
      rw [hcurrent] at hspell
      have hrun : q.run (s.next :: ts ++ breaks) =
          some (if breaks = [] then .operator 0 else .declared) := by
        rw [Outlook.run_append (Outlook.run_of_declaration hspell hname),
          Outlook.run_newlines_of_operator hbreaks]
      refine (ih _ lt hds ?_ (fun hi => ?_) rfl).of_passage
        (((Passage.of_advance hu).trans hts).trans hb) hrun
      · split <;> rfl
      · split
        · rename_i hnil
          subst hnil
          have hnone : w.next.kind.precedence? = none := by
            rw [hb.next_eq]
            exact precedence?_of_noneTighter hstop
          exact Outlook.isBetween_operator hnone hne hi
        · exact Outlook.isBetween_declared hne hi

/-! ## Blocks and programs -/

theorem YieldsBlock.exists_errors {b : Block} (h : YieldsBlock s b t) :
    ∃ us es, s.Passage us (s.missingBreak ++ es) t := by
  cases h with
  | declared hb _ _ rest =>
    obtain ⟨us, es, hus, -⟩ := rest.passage
    exact ⟨_, es, hb.trans hus⟩
  | undeclared hb _ hf =>
    obtain ⟨us, hus, -⟩ := fail_eq_ok hf
    exact ⟨_, _, hb.trans hus⟩

theorem progress_block {b : Block} (h : block s = .ok b t) (hopens : s.current.kind.opensBlock)
    (hq : q.step? s.current.kind = some .keyword) : Progress q [s.current] s t := by
  have hkeyword : q.run [s.current] = some .keyword := Outlook.run_cons hq
  by_cases hn : s.next.kind = .newline
  · obtain ⟨breaks, u, hb, hbreaks, hstop, hrest⟩ := block_eq_ok h
    rw [missingBreak, if_pos hn] at hb
    have hne : breaks ≠ [] := by
      rintro rfl
      exact hstop (hb.next_eq ▸ hn)
    have hrun : q.run ([s.current] ++ breaks) = some .body := by
      rw [Outlook.run_append hkeyword]
      exact Outlook.run_newlines_of_ne_nil rfl rfl hbreaks hne
    rcases hrest with ⟨hi, ds, -, hds⟩ | ⟨hi, -, hf⟩
    · exact (progress_declarations hds rfl fun hi' => absurd hi hi').of_passage hb hrun
    · have hbody : FirstError .body [] u t := .of_next hf (by simp)
        (Outlook.takes_eq_false ((if_neg hstop).trans (if_neg hi)) fun _ => rfl)
      exact .failed (hbody.of_passage hb _ (List.append_nil _).symm hrun)
  · obtain ⟨us, es, hus⟩ := (yieldsBlock_of_eq_ok h).exists_errors
    rw [missingBreak, if_neg hn] at hus
    exact .failed ⟨_, es, _, hus.errors, .next _, .behindKeyword [] rfl hopens rfl
      hkeyword (Outlook.takes_eq_false (if_neg hn) fun _ => rfl)⟩

theorem progress_statement {b : Option Block} (h : statement s = .ok b t)
    (hend : s.current.kind ≠ .endOfInput) (hq : q.IsBetween s.current.kind) :
    Progress q [s.current] s t := by
  rcases statement_eq_ok h with ⟨-, hc, hpass⟩ | ⟨c, -, hopens, hc⟩ |
    ⟨-, hnewline, hopens, hplaceholder, hf⟩
  · have hstep := hq.step.trans (Outlook.ofStatement?_of_skip hc)
    exact .clean hpass (Outlook.run_cons hstep) (Outlook.isBetween_statement _)
  · exact progress_block hc hopens (hq.step.trans (Outlook.ofStatement?_of_opensBlock hopens))
  · have hnone : q.step? s.current.kind = none := by
      rw [hq.step, Outlook.ofStatement?, if_neg (by simp [hnewline, hplaceholder]), if_neg hopens]
    exact .failed (.of_current hf (by simp)
      (Outlook.takes_eq_false hnone fun hk => absurd hk hend))

/-- A program has no errors, or its first error has found the first token that may not come. -/
theorem firstError_of_allStatements (h : allStatements s = .ok () t)
    (hq : q.IsBetween s.current.kind) : t.errors = s.errors ∨ FirstError q [s.current] s t := by
  induction hr : s.remaining using Nat.strongRecOn generalizing s q with
  | _ n ih =>
    subst hr
    obtain ⟨-, rfl⟩ | ⟨hend, b, u, u', v, hu, hu', hv, lt, h⟩ := allStatements_eq_ok h
    · exact .inl rfl
    · obtain ⟨hcursor, herrors⟩ : u'.cursor = u.cursor ∧ u'.errors = u.errors := by
        cases b <;> cases hu' <;> exact ⟨rfl, rfl⟩
      have hv' := Passage.of_advance hv
      have herrors' : v.errors = u.errors := by rw [hv'.errors, herrors, List.append_nil]
      have hnext : v.current = u.next :=
        (current_of_advance hv).trans (congrArg Cursor.next hcursor)
      cases progress_statement hu hend hq with
      | failed hfirst =>
        obtain ⟨bs, hyields⟩ := yieldsBlocks_of_eq_ok h
        obtain ⟨_, fs, -, -, hfs, -⟩ := hyields.reads
        exact .inr (hfirst.of_errors (by rw [hfs, herrors']))
      | clean hus hrun hq' =>
        have hsame : v.errors = s.errors := by rw [herrors', hus.errors, List.append_nil]
        rcases ih _ lt h (hnext ▸ hq') rfl with hnone | hfirst
        · exact .inl (hnone.trans hsame)
        · have hreads := hus.reads.append (hcursor ▸ hv'.reads)
          refine .inr (hfirst.of_reads hreads hsame _ ?_ hrun)
          rw [current_of_advance hv, List.append_assoc]

end Parser

/-! ## Source texts -/

/-- What an error has found among the tokens that are shown, it has found among those that lie
ahead. -/
theorem SyntaxError.Detects.of_upcoming {e : SyntaxError} {q : Outlook} {c : Cursor}
    {ts us : List Token} (h : e.Detects q (c.current :: us)) (hus : c.Shows us)
    (hts : c.Upcoming ts) : e.Detects q ts := by
  cases h with
  | atToken _ hk hsplit hrun htakes =>
    obtain ⟨after, rfl⟩ := hts.exists_append_of_shows hus hsplit fun y hy =>
      (Outlook.ne_of_run hrun y hy).1
    exact .atToken _ hk rfl hrun htakes
  | behindKeyword _ hk hopens hsplit hrun htakes =>
    rw [List.append_cons] at hsplit
    obtain ⟨after, rfl⟩ := hts.exists_append_of_shows hus hsplit fun y hy =>
      (Outlook.ne_of_run hrun y hy).1
    exact .behindKeyword _ hk hopens (List.append_cons ..).symm hrun htakes

/-- The first error of a source text has found the first of its tokens that may not come. -/
theorem detects_of_parse {source filename : String} {ts : List Token} {bs : List Block}
    {e : SyntaxError} {es : List SyntaxError} (h : tokenize source filename = .ok ts)
    (hp : parse source filename = .ok (bs, e :: es)) : e.Detects .statement ts := by
  obtain ⟨s, t, -, hupcoming, hnone, -, ht, -, hparse⟩ := exists_run_of_tokenize h
  have herrors : t.errors = e :: es := (Prod.mk.inj (Except.ok.inj (hparse.symm.trans hp))).2
  rcases Parser.firstError_of_allStatements ht (Outlook.isBetween_statement _) with hsame |
    ⟨e', es', us, hes, hus, he⟩
  · rw [herrors, hnone] at hsame
    cases hsame
  · rw [herrors, hnone, List.nil_append] at hes
    obtain ⟨rfl, -⟩ := List.cons.inj hes
    exact he.of_upcoming hus hupcoming

end SLFront
