import SLFront.Proofs.Printing
import SLFront.Proofs.Unplaced

/-!
# What may come next

Of the tokens that have been read, only so much decides which token may come next: whether they end
between statements, in a declaration or in an expression, and how many parentheses are open. That is
the outlook of a reader; a token that may come next leads to another outlook (`Outlook.step?`), and
the end of input may come where a program may end (`Outlook.accepts`). The levels of precedence do
not matter here, since any operator may follow any operand.

Spellings of programs are read to the end in this way (`Outlook.run_of_allSpelledBy`), and from
every outlook there is a way to go on to where a program may end (`Outlook.run_completion`).
-/
namespace SLFront

/-- What has been read, as far as it decides what may come next. -/
inductive Outlook
  /-- A statement, other than a block with its declarations, or nothing. -/
  | statement
  /-- A block keyword. -/
  | keyword
  /-- A block keyword and line breaks. -/
  | body
  /-- The name of a declaration. -/
  | name
  /-- The name of a declaration and its colon. -/
  | colon
  /-- A declaration up to its type. -/
  | typed
  /-- What an operand has to follow, with line breaks before it or without, and inside so many
  parentheses. -/
  | operand (depth : Nat) (breaks : Bool)
  /-- An operand inside so many parentheses. -/
  | operator (depth : Nat)
  /-- A declaration and line breaks. -/
  | declared
deriving DecidableEq, Repr

namespace Outlook

/-- What a token leads to that stands between statements. -/
def ofStatement? (k : Token.Kind) : Option Outlook :=
  if k = .newline ∨ k.isPlaceholder then some statement
  else if k.opensBlock then some keyword
  else none

/-- What the first token of an operand leads to. -/
def opened (depth : Nat) : Opening → Outlook
  | .identifier | .number => operator depth
  | .operator => operand depth false
  | .group => operand (depth + 1) true

/-- What a token leads to that stands behind an expression inside so many parentheses. -/
def ended? : Nat → Token.Kind → Option Outlook
  | 0, k =>
    if k = .newline then some declared else if k = .identifier then some name else ofStatement? k
  | depth + 1, k => if k = .symbol .rightParen then some (operator depth) else none

/-- What a token of this type leads to, if it may come next and does not end the program. -/
def step? : Outlook → Token.Kind → Option Outlook
  | statement, k => ofStatement? k
  | keyword, k => if k = .newline then some body else none
  | body, k =>
    if k = .newline then some body else if k = .identifier then some name else none
  | name, k =>
    if k = .symbol .colon then some colon
    else if k = .symbol .assign then some (operand 0 false) else none
  | colon, k => if k.isTypeName then some typed else none
  | typed, k => if k = .symbol .assign then some (operand 0 false) else none
  | operand depth breaks, k =>
    match k.opening? with
    | some o => some (opened depth o)
    | none => if k = .newline ∧ breaks then some (operand depth true) else none
  | operator depth, k =>
    if k.precedence?.isSome then some (operand depth true) else ended? depth k
  | declared, k =>
    if k = .newline then some declared else if k = .identifier then some name else ofStatement? k

/-- A program may end here. -/
def accepts : Outlook → Bool
  | statement | operator 0 | declared => true
  | _ => false

/-- A token of this type may come next. -/
def takes (q : Outlook) (k : Token.Kind) : Bool :=
  (q.step? k).isSome || k = .endOfInput && q.accepts

/-- What tokens lead to, if each of them may come where it comes. -/
def run (q : Outlook) (ts : List Token) : Option Outlook := ts.foldlM (fun q t => q.step? t.kind) q

section
variable {q q' : Outlook} {t : Token} {ts us breaks : List Token} {k : Token.Kind} {d : Nat}
  {b : Bool}

@[simp] theorem run_nil (q : Outlook) : q.run [] = some q := rfl

theorem run_cons (h : q.step? t.kind = some q') : q.run (t :: ts) = q'.run ts := by
  rw [run, List.foldlM_cons, h]
  rfl

theorem run_append (h : q.run ts = some q') : q.run (ts ++ us) = q'.run us := by
  rw [run, List.foldlM_append, ← run, h]
  rfl

theorem step?_of_run_cons (h : q.run (t :: ts) = some q') :
    ∃ q₁, q.step? t.kind = some q₁ ∧ q₁.run ts = some q' :=
  Option.bind_eq_some_iff.1 (List.foldlM_cons.symm.trans h)

/-- The end of input leads nowhere, and neither does an illegal character. -/
theorem ne_of_step? (h : q.step? k = some q') : k ≠ .endOfInput ∧ k ≠ .illegal := by
  constructor <;>
  · rintro rfl
    cases q with
    | operator d => cases d <;> cases h
    | _ => cases h

theorem ne_of_run (h : q.run ts = some q') :
    ∀ t ∈ ts, t.kind ≠ .endOfInput ∧ t.kind ≠ .illegal := by
  induction ts generalizing q with
  | nil => simp
  | cons t ts ih =>
    obtain ⟨q₁, hstep, hrun⟩ := step?_of_run_cons h
    exact List.forall_mem_cons.2 ⟨ne_of_step? hstep, ih hrun⟩

/-- The places of the tokens do not matter. -/
theorem run_map_unplaced (q : Outlook) (ts : List Token) :
    q.run (ts.map Token.unplaced) = q.run ts :=
  List.foldlM_map

/-- Where tokens lead to where a program may end, each of them may come where it stands, and the end
of input may come behind them. -/
theorem takes_of_run {before after : List Token} {q₁ : Outlook} {e x : Token}
    (h : q.run ts = some q') (haccepts : q'.accepts) (he : e.kind = .endOfInput)
    (hsplit : ts ++ [e] = before ++ x :: after) (hbefore : q.run before = some q₁) :
    q₁.takes x.kind := by
  rcases List.eq_nil_or_concat after with rfl | ⟨after, y, rfl⟩
  · obtain ⟨rfl, hx⟩ := List.append_inj' hsplit rfl
    obtain rfl := Option.some.inj (hbefore.symm.trans h)
    obtain rfl := (List.cons.inj hx).1
    simp [takes, he, haccepts]
  · rw [List.concat_eq_append, ← List.cons_append, ← List.append_assoc] at hsplit
    obtain ⟨rfl, -⟩ := List.append_inj' hsplit rfl
    rw [run_append hbefore] at h
    obtain ⟨q₂, hstep, -⟩ := step?_of_run_cons h
    simp [takes, hstep]

/-- Where a line break changes nothing, any number of them changes nothing. -/
theorem run_newlines (hq : q.step? .newline = some q) (h : ∀ t ∈ breaks, t.kind = .newline) :
    q.run breaks = some q := by
  induction breaks with
  | nil => rfl
  | cons t breaks ih =>
    obtain ⟨ht, hbreaks⟩ := List.forall_mem_cons.1 h
    rw [run_cons (by rw [ht]; exact hq), ih hbreaks]

theorem run_newlines_of_ne_nil (hq : q.step? .newline = some q')
    (hq' : q'.step? .newline = some q') (h : ∀ t ∈ breaks, t.kind = .newline)
    (hne : breaks ≠ []) : q.run breaks = some q' := by
  cases breaks with
  | nil => exact absurd rfl hne
  | cons t breaks =>
    obtain ⟨ht, hbreaks⟩ := List.forall_mem_cons.1 h
    rw [run_cons (by rw [ht]; exact hq), run_newlines hq' hbreaks]

/-! ## Expressions -/

theorem step?_operand {o : Opening} (h : k.opening? = some o) :
    (operand d b).step? k = some (opened d o) := by
  rw [step?, h]

theorem step?_operand_of_none (h : k.opening? = none) (hb : b → k ≠ .newline) :
    (operand d b).step? k = none := by
  rw [step?, h]
  exact if_neg fun hk => hb hk.2 hk.1

theorem step?_operator {p : Precedence} (h : k.precedence? = some p) :
    (operator d).step? k = some (operand d true) := by
  rw [step?, h]
  rfl

theorem step?_operator_succ (h : k.precedence? = none) (hk : k ≠ .symbol .rightParen) :
    (operator (d + 1)).step? k = none := by
  rw [step?, h]
  exact if_neg hk

/-- Line breaks may follow an opening parenthesis. -/
theorem run_group (h : t.kind.opening? = some .group) (hbreaks : ∀ t ∈ breaks, t.kind = .newline) :
    (operand d b).run (t :: breaks) = some (operand (d + 1) true) := by
  rw [run_cons (step?_operand h), opened, run_newlines rfl hbreaks]

/-- Line breaks may follow an operator. -/
theorem run_operator {p : Precedence} (h : t.kind.precedence? = some p)
    (hbreaks : ∀ t ∈ breaks, t.kind = .newline) :
    (operator d).run (t :: breaks) = some (operand d true) := by
  rw [run_cons (step?_operator h), run_newlines rfl hbreaks]

theorem run_of_spelledBy {p : Int} {e : Expr} (h : e.SpelledBy p ts) (d : Nat) (b : Bool) :
    (operand d b).run ts = some (operator d) := by
  induction h generalizing d b with
  | identifier ht =>
    rw [run_cons (step?_operand (o := .identifier) (by rw [ht]; rfl)), run_nil, opened]
  | number ht => rw [run_cons (step?_operand (o := .number) (by rw [ht]; rfl)), run_nil, opened]
  | prefixOp ht _ ih => rw [run_cons (step?_operand ht), opened, ih]
  | group hl hbreaks _ hr ih =>
    have hclose : (operator (d + 1)).step? (.symbol .rightParen) = some (operator d) := rfl
    rw [List.append_assoc, run_append (run_group (by rw [hl]; rfl) hbreaks),
      run_append (ih (d + 1) true), run_cons (by rw [hr]; exact hclose), run_nil]
  | infixOp ht _ _ hbreaks _ ihl ihr =>
    rw [List.append_assoc, run_append (ihl d b), run_append (run_operator ht hbreaks), ihr d true]

/-! ## Declarations and blocks -/

theorem run_of_declaration {c : Declaration} (h : c.SpelledBy ts)
    (hq : q.step? .identifier = some name) : q.run ts = some (operator 0) := by
  cases h with
  | untyped hn ha value =>
    have hassign : name.step? (.symbol .assign) = some (operand 0 false) := rfl
    rw [run_cons (by rw [hn]; exact hq), run_cons (by rw [ha]; exact hassign),
      run_of_spelledBy value]
  | typed hn hc ht ha value =>
    have hcolon : name.step? (.symbol .colon) = some colon := rfl
    have htype : colon.step? _ = some typed := if_pos ht
    have hassign : typed.step? (.symbol .assign) = some (operand 0 false) := rfl
    rw [run_cons (by rw [hn]; exact hq), run_cons (by rw [hc]; exact hcolon), run_cons htype,
      run_cons (by rw [ha]; exact hassign), run_of_spelledBy value]

/-- Line breaks may follow a declaration, and another declaration may follow either way. -/
theorem run_newlines_of_operator (h : ∀ t ∈ breaks, t.kind = .newline) :
    (operator 0).run breaks = some (if breaks = [] then operator 0 else declared) := by
  by_cases hne : breaks = []
  · rw [if_pos hne, hne, run_nil]
  · rw [if_neg hne, run_newlines_of_ne_nil rfl rfl h hne]

theorem run_of_declarations {ds : List Declaration} (h : Declaration.AllSpelledBy ds ts)
    (hq : q.step? .identifier = some name) : q.run ts = some (operator 0) := by
  induction h generalizing q with
  | single h => exact run_of_declaration h hq
  | cons h hbreaks _ ih =>
    rw [List.append_assoc, run_append (run_of_declaration h hq),
      run_append (run_newlines_of_operator hbreaks), ih]
    split <;> rfl

/-! ## Programs -/

/-- Between statements: a token of this type leads where it leads behind a statement, and the
program may end. -/
structure IsBetween (q : Outlook) (k : Token.Kind) : Prop where
  step : q.step? k = ofStatement? k
  accepts : q.accepts

theorem cases_of_accepts (h : q.accepts) : q = statement ∨ q = operator 0 ∨ q = declared := by
  cases q with
  | operator d => cases d <;> simp_all [Outlook.accepts]
  | _ => simp_all [Outlook.accepts]

theorem isBetween_statement (k : Token.Kind) : statement.IsBetween k := ⟨rfl, rfl⟩

theorem isBetween_declared (hn : k ≠ .newline) (hi : k ≠ .identifier) : declared.IsBetween k :=
  ⟨(if_neg hn).trans (if_neg hi), rfl⟩

theorem isBetween_operator (hp : k.precedence? = none) (hn : k ≠ .newline)
    (hi : k ≠ .identifier) : (operator 0).IsBetween k := by
  refine ⟨?_, rfl⟩
  rw [step?, hp]
  exact (if_neg hn).trans (if_neg hi)

theorem ofStatement?_of_skip (h : k = .newline ∨ k.isPlaceholder) :
    ofStatement? k = some statement := if_pos h

theorem ofStatement?_of_opensBlock (h : k.opensBlock) : ofStatement? k = some keyword := by
  have hskip : ¬(k = .newline ∨ k.isPlaceholder) := by
    rintro (hk | hk)
    · exact (Token.Kind.ne_of_opensBlock h).1 hk
    · simp [(Token.Kind.ne_newline_of_isPlaceholder hk).2] at h
  exact (if_neg hskip).trans (if_pos h)

theorem run_of_block {c : Block} (h : c.SpelledBy ts)
    (hq : ∀ k : Token.Kind, k.opensBlock → q.step? k = some keyword) :
    q.run ts = some (operator 0) := by
  obtain ⟨breaks, us, rfl, hne, hbreaks, hus⟩ := h.body
  rw [List.cons_append, run_cons (hq _ h.keyword),
    run_append (run_newlines_of_ne_nil rfl rfl hbreaks hne), run_of_declarations hus rfl]

/-- Where a program may end, a statement may come. -/
theorem isBetween_of_isBoundary (hq : q.accepts) (hk : k.isBoundary) : q.IsBetween k := by
  have hn := Token.Kind.ne_newline_of_isBoundary hk
  have hi := Token.Kind.ne_identifier_of_isBoundary hk
  rcases cases_of_accepts hq with rfl | rfl | rfl
  · exact isBetween_statement k
  · exact isBetween_operator (Token.Kind.precedence?_of_isBoundary hk) hn hi
  · exact isBetween_declared hn hi

/-- Where a program may end, more line breaks and statements that are not parsed may come. -/
theorem step?_skip (hq : q.accepts) (hk : k = .newline ∨ k.isPlaceholder) :
    ∃ q', q.step? k = some q' ∧ q'.accepts := by
  rcases hk with rfl | hk
  · rcases cases_of_accepts hq with rfl | rfl | rfl <;> exact ⟨_, rfl, rfl⟩
  · have hbetween := isBetween_of_isBoundary hq (Token.Kind.isBoundary_iff.2 (.inr (.inr hk)))
    exact ⟨statement, hbetween.step.trans (ofStatement?_of_skip (.inr hk)), rfl⟩

theorem step?_keyword (hq : q.accepts) (hk : k.opensBlock) : q.step? k = some keyword :=
  (isBetween_of_isBoundary hq (Token.Kind.isBoundary_iff.2 (.inr (.inl hk)))).step.trans
    (ofStatement?_of_opensBlock hk)

/-- From where a program may end, a spelling of blocks leads to where a program may end. -/
theorem run_of_allSpelledBy {cs : List Block} (h : Block.AllSpelledBy cs ts)
    (hq : q.accepts) : ∃ q', q.run ts = some q' ∧ q'.accepts := by
  induction h generalizing q with
  | nil => exact ⟨q, rfl, hq⟩
  | skip ht _ ih =>
    obtain ⟨q₁, hstep, hq₁⟩ := step?_skip hq ht
    rw [run_cons hstep]
    exact ih hq₁
  | cons h _ ih =>
    rw [run_append (run_of_block h fun k hk => step?_keyword hq hk)]
    exact ih rfl

/-! ## Ways to go on -/

/-- A name, as a token. -/
def sampleName : Token := ⟨.identifier, "a", default⟩

/-- A number, as a token. -/
def sampleNumber : Token := ⟨.number, "0", default⟩

/-- A type name, as a token. -/
def sampleType : Token := ⟨.keyword .numerico, "numerico", default⟩

/-- Tokens that lead to where a program may end. -/
def completion : Outlook → List Token
  | statement | declared => []
  | keyword => [.lineBreak, sampleName, .ofSymbol .assign, sampleNumber]
  | body => [sampleName, .ofSymbol .assign, sampleNumber]
  | name | typed => [.ofSymbol .assign, sampleNumber]
  | colon => [sampleType, .ofSymbol .assign, sampleNumber]
  | operand depth _ => sampleNumber :: List.replicate depth (.ofSymbol .rightParen)
  | operator depth => List.replicate depth (.ofSymbol .rightParen)

theorem run_replicate_rightParen (d : Nat) :
    (operator d).run (List.replicate d (.ofSymbol .rightParen)) = some (operator 0) := by
  induction d with
  | zero => rfl
  | succ d ih =>
    have hclose : (operator (d + 1)).step? (.symbol .rightParen) = some (operator d) := rfl
    rw [List.replicate_succ, run_cons (t := .ofSymbol .rightParen) hclose, ih]

/-- From every outlook there is a way to where a program may end. -/
theorem run_completion (q : Outlook) : ∃ q', q.run q.completion = some q' ∧ q'.accepts := by
  cases q with
  | statement => exact ⟨_, rfl, rfl⟩
  | declared => exact ⟨_, rfl, rfl⟩
  | operand d b =>
    have hnumber : (operand d b).step? .number = some (operator d) := rfl
    refine ⟨operator 0, ?_, rfl⟩
    rw [completion, run_cons (t := sampleNumber) hnumber, run_replicate_rightParen]
  | operator d => exact ⟨operator 0, run_replicate_rightParen d, rfl⟩
  | _ => exact ⟨operator 0, rfl, rfl⟩

theorem isWellSpelled_completion (q : Outlook) : ∀ t ∈ q.completion, t.isWellSpelled := by
  have hparens : ∀ d, ∀ t ∈ List.replicate d (Token.ofSymbol .rightParen), t.isWellSpelled := by
    intro d t ht
    rw [(List.mem_replicate.1 ht).2]
    decide
  cases q with
  | operand d b => exact List.forall_mem_cons.2 ⟨by decide, hparens d⟩
  | operator d => exact hparens d
  | _ => decide

end

end Outlook
end SLFront
