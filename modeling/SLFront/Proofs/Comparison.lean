import Mathlib.Data.List.Forall2
import SLFront.Proofs.ProgramReading
import SLFront.Proofs.Unplaced

/-!
# Parsers side by side

What a parser does depends on the tokens ahead of it and on nothing else: neither on what it has
recorded before, nor on the lexer that gives it the tokens. Nor does it depend on all that the
tokens are. A `Comparison` says which tokens count as alike, and token lists are beside each other
if their tokens are alike one by one, but for the lengths of runs of line breaks
(`Comparison.Beside`). The second list may also go on with a statement where the first one ends.

A parser skips line breaks in several ways, and of two parsers that are side by side one may take
more steps than the other. So there are two ways to be side by side: what counts may be all tokens
from the current one on (`Comparison.Even`), or those ahead of it (`Comparison.Level`). The single
steps lead from one to the other.

## Main definitions

* `Expr.Alike`, `Block.Alike`, `SyntaxError.Alike` — trees and errors with like tokens.
* `Comparison`, `Comparison.Beside` — like tokens, up to the lengths of runs of line breaks.
* `Comparison.Even`, `Comparison.Level` — parsers side by side.
-/
namespace SLFront

/-! ## Trees with like tokens -/

/-- The expressions have the same shape, with like tokens at the same places. The texts of the
operators are those of their tokens. -/
inductive Expr.Alike (R : Token → Token → Prop) : Expr → Expr → Prop
  | identifier {t t' : Token} (h : R t t') : Alike R (.identifier t) (.identifier t')
  | number {t t' : Token} (h : R t t') : Alike R (.number t) (.number t')
  | prefixOp {t t' : Token} {e e' : Expr} (h : R t t') (right : Alike R e e') :
    Alike R (.prefixOp t t.lexeme e) (.prefixOp t' t'.lexeme e')
  | infixOp {t t' : Token} {l l' r r' : Expr} (h : R t t') (left : Alike R l l')
    (right : Alike R r r') : Alike R (.infixOp t t.lexeme l r) (.infixOp t' t'.lexeme l' r')

/-- The declarations have like tokens at the same places. -/
structure Declaration.Alike (R : Token → Token → Prop) (d d' : Declaration) : Prop where
  name : R d.name d'.name
  typeName : Option.Rel R d.typeName d'.typeName
  value : Option.Rel (Expr.Alike R) d.value d'.value

/-- The blocks have like tokens at the same places. -/
structure Block.Alike (R : Token → Token → Prop) (b b' : Block) : Prop where
  keyword : R b.keyword b'.keyword
  declarations : List.Forall₂ (Declaration.Alike R) b.declarations b'.declarations

/-- The errors are of the same kind, at like tokens. -/
structure SyntaxError.Alike (R : Token → Token → Prop) (e e' : SyntaxError) : Prop where
  kind : e'.kind = e.kind
  token : R e.token e'.token

/-- The error at another token. -/
def SyntaxError.mapToken (f : Token → Token) (e : SyntaxError) : SyntaxError where
  kind := e.kind
  token := f e.token

section
variable (e : Expr) (d : Declaration) (b : Block)

@[simp] theorem Expr.mapTokens_id : e.mapTokens id = e := by
  induction e with
  | prefixOp t op right ih => simp [mapTokens, ih]
  | infixOp t op left right ihl ihr => simp [mapTokens, ihl, ihr]
  | dangling t op left ih => simp [mapTokens, ih]
  | _ => rfl

@[simp] theorem Declaration.mapTokens_id : d.mapTokens id = d := by
  obtain ⟨name, typeName, value⟩ := d
  cases typeName <;> cases value <;> simp [mapTokens]

@[simp] theorem Block.mapTokens_id : b.mapTokens id = b := by
  obtain ⟨keyword, declarations⟩ := b
  have hid : Declaration.mapTokens id = id := funext Declaration.mapTokens_id
  simp [mapTokens, hid]

@[simp] theorem Block.map_mapTokens_id (bs : List Block) : bs.map (mapTokens id) = bs := by
  rw [funext (f := mapTokens id) (g := id) mapTokens_id, List.map_id]

@[simp] theorem SyntaxError.map_mapToken_id (es : List SyntaxError) : es.map (mapToken id) = es :=
  List.map_id es

end

/-- The token is a line break. -/
def Token.isLineBreak (t : Token) : Bool := t.kind = .newline

theorem map_eq_map_of_forall₂ {α β γ : Type} {S : α → β → Prop} {xs : List α} {ys : List β}
    {p : α → γ} {q : β → γ} (h : List.Forall₂ S xs ys) (hpq : ∀ x y, S x y → p x = q y) :
    xs.map p = ys.map q := by
  induction h with
  | nil => rfl
  | cons h _ ih => rw [List.map_cons, List.map_cons, hpq _ _ h, ih]

section
variable {R : Token → Token → Prop} {f g : Token → Token} (hmap : ∀ t t', R t t' → f t = g t')
include hmap

theorem SyntaxError.Alike.mapToken_eq {e e' : SyntaxError} (h : e.Alike R e') :
    e.mapToken f = e'.mapToken g := by
  rw [mapToken, mapToken, h.kind, hmap _ _ h.token]

variable (hlexeme : ∀ t t', R t t' → t.lexeme = t'.lexeme)
include hlexeme

/-- Where like tokens have the same lexeme and go over to the same token, like expressions go over
to the same expression. -/
theorem Expr.Alike.mapTokens_eq {e e' : Expr} (h : e.Alike R e') :
    e.mapTokens f = e'.mapTokens g := by
  induction h with
  | identifier h => exact congrArg Expr.identifier (hmap _ _ h)
  | number h => exact congrArg Expr.number (hmap _ _ h)
  | prefixOp h _ ih => rw [mapTokens, mapTokens, hmap _ _ h, hlexeme _ _ h, ih]
  | infixOp h _ _ ihl ihr => rw [mapTokens, mapTokens, hmap _ _ h, hlexeme _ _ h, ihl, ihr]

theorem Declaration.Alike.mapTokens_eq {d d' : Declaration} (h : d.Alike R d') :
    d.mapTokens f = d'.mapTokens g := by
  obtain ⟨name, typeName, value⟩ := d
  obtain ⟨name', typeName', value'⟩ := d'
  obtain ⟨hname, htype, hvalue⟩ := h
  rw [mapTokens, mapTokens, Declaration.mk.injEq]
  refine ⟨hmap _ _ hname, ?_, ?_⟩
  · cases htype with
    | none => rfl
    | some h => exact congrArg some (hmap _ _ h)
  · cases hvalue with
    | none => rfl
    | some h => exact congrArg some (h.mapTokens_eq hmap hlexeme)

theorem Block.Alike.mapTokens_eq {b b' : Block} (h : b.Alike R b') :
    b.mapTokens f = b'.mapTokens g := by
  rw [mapTokens, mapTokens, Block.mk.injEq]
  exact ⟨hmap _ _ h.keyword,
    map_eq_map_of_forall₂ h.declarations fun _ _ hd => hd.mapTokens_eq hmap hlexeme⟩

end

/-! ## Like token lists -/

/-- What two parsers are compared by: which tokens count as alike, what the second text goes on
with where the first one ends, if it does, and the states whose records are left out of account. -/
structure Comparison where
  alike : Token → Token → Prop
  kind_eq : ∀ {t t' : Token}, alike t t' → t'.kind = t.kind
  beyond : Option (List Token) := none
  first : Parser
  second : Parser

namespace Comparison
variable {C : Comparison} {t t' : Token} {ts ts' : List Token}

/-- The tokens are alike, but for the lengths of runs of line breaks. Where the first list ends the
second one may go on, behind line breaks, with a statement. -/
inductive Beside (C : Comparison) : List Token → List Token → Prop
  | ended {t t' : Token} (h : C.alike t t') (he : t.kind = .endOfInput) : Beside C [t] [t']
  | token {t t' : Token} {ts ts' : List Token} (h : C.alike t t') (hn : t.kind ≠ .newline)
    (rest : Beside C ts ts') : Beside C (t :: ts) (t' :: ts')
  | breaks {t t' : Token} {bs bs' ts ts' : List Token} (h : C.alike t t')
    (hbs : ∀ b ∈ t :: bs, b.kind = .newline) (hbs' : ∀ b ∈ t' :: bs', b.kind = .newline)
    (rest : Beside C ts ts') : Beside C (t :: bs ++ ts) (t' :: bs' ++ ts')
  | goesOn {e k : Token} {bs rest : List Token} (hgo : C.beyond = some (k :: rest))
    (he : e.kind = .endOfInput) (hbs : ∀ b ∈ bs, b.kind = .newline) (hk : k.kind.isBoundary) :
    Beside C [e] (bs ++ k :: rest)

/-- Lists that are beside each other may have one more token in front each, if these are alike. -/
theorem Beside.cons (h : C.alike t t') (rest : C.Beside ts ts') :
    C.Beside (t :: ts) (t' :: ts') := by
  by_cases hn : t.kind = .newline
  · have hbreak : ∀ b ∈ [t], b.kind = .newline := List.forall_mem_singleton.2 hn
    have hbreak' : ∀ b ∈ [t'], b.kind = .newline :=
      List.forall_mem_singleton.2 ((C.kind_eq h).trans hn)
    exact .breaks h hbreak hbreak' rest
  · exact .token h hn rest

/-- The first tokens of lists that are beside each other. -/
inductive Meets (C : Comparison) (t t' : Token) : Prop
  | alike (h : C.alike t t')
  | goesOn (hgo : C.beyond.isSome) (he : t.kind = .endOfInput)
    (h : t'.kind = .newline ∨ t'.kind.isBoundary)

theorem Beside.exists_cons (h : C.Beside ts ts') :
    ∃ t us t' us', ts = t :: us ∧ ts' = t' :: us' ∧ C.Meets t t' := by
  cases h with
  | ended h _ => exact ⟨_, _, _, _, rfl, rfl, .alike h⟩
  | token h _ _ => exact ⟨_, _, _, _, rfl, rfl, .alike h⟩
  | breaks h _ _ _ => exact ⟨_, _, _, _, rfl, rfl, .alike h⟩
  | @goesOn e k bs rest hgo he hbs hk =>
    have hgo : C.beyond.isSome := by simp [hgo]
    cases bs with
    | nil => exact ⟨_, _, _, _, rfl, rfl, .goesOn hgo he (.inr hk)⟩
    | cons b bs => exact ⟨_, _, _, _, rfl, rfl, .goesOn hgo he (.inl (hbs b List.mem_cons_self))⟩

/-- Lists stay beside each other if the tokens in front are dropped, where these are line breaks or
others at which no recovery stops. -/
theorem Beside.dropWhile (h : C.Beside ts ts') (test : Token.Kind → Bool)
    (hnewline : test .newline) (hboundary : ∀ k : Token.Kind, k.isBoundary → test k = false) :
    C.Beside (ts.dropWhile fun t => test t.kind) (ts'.dropWhile fun t => test t.kind) := by
  induction h with
  | ended h he =>
    have hstop := hboundary .endOfInput rfl
    simp only [List.dropWhile_cons, C.kind_eq h, he, hstop]
    exact .ended h he
  | token h hn rest ih =>
    simp only [List.dropWhile_cons, C.kind_eq h]
    split
    · exact ih
    · exact .token h hn rest
  | breaks h hbs hbs' _ ih =>
    have htest : ∀ {bs : List Token}, (∀ b ∈ bs, b.kind = .newline) → ∀ b ∈ bs, test b.kind := by
      intro bs hbs b hb
      rw [hbs b hb]
      exact hnewline
    rw [List.dropWhile_append_of_pos (htest hbs), List.dropWhile_append_of_pos (htest hbs')]
    exact ih
  | @goesOn e k bs rest hgo he hbs hk =>
    have hbs' : ∀ b ∈ bs, test b.kind := by
      intro b hb
      rw [hbs b hb]
      exact hnewline
    have hstop := hboundary .endOfInput rfl
    rw [List.dropWhile_append_of_pos hbs']
    simp only [List.dropWhile_cons, he, hstop, hboundary _ hk]
    exact .goesOn hgo he (List.forall_mem_nil _) hk

theorem Beside.dropNewlines (h : C.Beside ts ts') :
    C.Beside (ts.dropWhile Token.isLineBreak) (ts'.dropWhile Token.isLineBreak) :=
  h.dropWhile (fun k => k = .newline) (by simp) fun k hk => by
    simpa using Token.Kind.ne_newline_of_isBoundary hk

theorem Beside.dropToBoundary (h : C.Beside ts ts') :
    C.Beside (ts.dropWhile fun t => !t.kind.isBoundary)
      (ts'.dropWhile fun t => !t.kind.isBoundary) :=
  h.dropWhile (fun k => !k.isBoundary) rfl fun k hk => by simp [hk]

/-! ## Tokens that meet -/

/-- No error is at the end of the first text if the second text goes on there. -/
def NoneAtEnd (C : Comparison) (es : List SyntaxError) : Prop :=
  C.beyond.isSome → ∀ e ∈ es, e.token.kind ≠ .endOfInput

theorem NoneAtEnd.mono {es fs : List SyntaxError} (h : C.NoneAtEnd fs) (hes : es ⊆ fs) :
    C.NoneAtEnd es := fun hgo e he => h hgo e (hes he)

namespace Meets

theorem alike_of_ne (h : C.Meets t t') (ht : t.kind ≠ .endOfInput) : C.alike t t' := by
  cases h with
  | alike h => exact h
  | goesOn _ he _ => exact absurd he ht

/-- At the token of an error the texts are alike. -/
theorem alike_of_mem (h : C.Meets t t') {kind : SyntaxError.Kind} {es : List SyntaxError}
    (hes : C.NoneAtEnd es) (hmem : ⟨kind, t⟩ ∈ es) : C.alike t t' := by
  cases h with
  | alike h => exact h
  | goesOn hgo he _ => exact absurd he (hes hgo _ hmem)

theorem kind_eq (h : C.Meets t t') {k : Token.Kind} (ht : t.kind = k) (hk : k ≠ .endOfInput) :
    t'.kind = k := by
  rw [C.kind_eq (h.alike_of_ne (ht ▸ hk)), ht]

theorem kind_ne (h : C.Meets t t') {k : Token.Kind} (ht : t.kind ≠ k) (hnewline : k ≠ .newline)
    (hboundary : k.isBoundary = false) : t'.kind ≠ k := by
  cases h with
  | alike h => rwa [C.kind_eq h]
  | goesOn _ _ h =>
    rintro rfl
    rcases h with h | h
    · exact hnewline h
    · rw [hboundary] at h
      cases h

/-- A test of types that fails for line breaks and where recovery stops cannot tell tokens that meet
from each other. -/
theorem test_eq (h : C.Meets t t') {α : Type} {test : Token.Kind → α} {a : α}
    (hnewline : test .newline = a) (hboundary : ∀ k : Token.Kind, k.isBoundary → test k = a) :
    test t'.kind = test t.kind := by
  cases h with
  | alike h => rw [C.kind_eq h]
  | goesOn _ he h =>
    have ht : test t.kind = a := by rw [he]; exact hboundary _ rfl
    rw [ht]
    rcases h with h | h
    · rw [h, hnewline]
    · exact hboundary _ h

end Meets

end Comparison

/-! ## Skipping, by the tokens ahead -/

namespace Cursor
variable {c : Cursor} {t : Token} {ts : List Token}

/-- The tokens behind the current one. At the end of input that is the end of input again. -/
def Ahead (c : Cursor) (ts : List Token) : Prop := ∃ d, c.step? = some d ∧ d.Upcoming ts

theorem Upcoming.current_eq (h : c.Upcoming (t :: ts)) : c.current = t := by
  obtain ⟨_, hts⟩ := h.exists_cons
  exact (List.cons.inj hts).1.symm

theorem Ahead.next_eq (h : c.Ahead (t :: ts)) : c.next = t := by
  obtain ⟨d, hd, hts⟩ := h
  rw [← current_of_step hd, hts.current_eq]

theorem Upcoming.ahead (h : c.Upcoming (t :: ts)) (ht : t.kind ≠ .endOfInput) : c.Ahead ts := by
  cases h with
  | last he _ _ => exact absurd he ht
  | cons _ hs rest => exact ⟨_, hs, rest⟩

theorem Upcoming.ahead_self (h : c.Upcoming (t :: ts)) (ht : t.kind = .endOfInput) :
    ts = [] ∧ c.Ahead [t] := by
  cases h with
  | last he hn hs => exact ⟨rfl, c, hs, .last he hn hs⟩
  | cons hc _ _ => exact absurd ht hc

end Cursor

namespace Parser
variable {s : Parser} {ts : List Token}

theorem advanceWhile_next_of_ahead {f : Token.Kind → Token.Kind → Bool} (test : Token.Kind → Bool)
    {stops : f .endOfInput .endOfInput = false} (hf : ∀ c n, f c n = test n)
    (h : s.cursor.Ahead ts) :
    ∃ d, advanceWhile f stops s = .ok () (s.moved d) ∧
      d.Ahead (ts.dropWhile fun t => test t.kind) := by
  induction ts generalizing s with
  | nil =>
    obtain ⟨d, -, hd⟩ := h
    obtain ⟨us, hus⟩ := hd.exists_cons
    cases hus
  | cons t ts ih =>
    have hnext : s.next = t := h.next_eq
    obtain ⟨d, hd, hts⟩ := id h
    rw [advanceWhile_eq, hf, hnext]
    cases ht : test t.kind with
    | true =>
      have hend : t.kind ≠ .endOfInput := by
        intro he
        rw [he, ← hf .endOfInput .endOfInput, stops] at ht
        cases ht
      obtain ⟨e, he, hrest⟩ := ih (s := s.moved d) (hts.ahead hend)
      rw [if_pos rfl, bind_of_ok (advance_of_step hd)]
      refine ⟨e, he, ?_⟩
      rwa [List.dropWhile_cons_of_pos (by simpa using ht)]
    | false =>
      rw [if_neg Bool.false_ne_true, List.dropWhile_cons_of_neg (by simp [ht])]
      exact ⟨s.cursor, rfl, h⟩

theorem consumeNewlines_of_ahead (h : s.cursor.Ahead ts) :
    ∃ d, consumeNewlines s = .ok () (s.moved d) ∧
      d.Ahead (ts.dropWhile Token.isLineBreak) :=
  advanceWhile_next_of_ahead (fun k => k = .newline) (fun _ _ => rfl) h

theorem fail_of_ahead (kind : SyntaxError.Kind) (x : Token) (h : s.cursor.Ahead ts) :
    ∃ t, fail kind x s = .ok () t ∧ t.cursor.Ahead (ts.dropWhile fun t => !t.kind.isBoundary) ∧
      t.statements = s.statements ∧ t.errors = s.errors ++ [⟨kind, x⟩] := by
  let u : Parser :=
    { s with
      errors := s.errors ++ [⟨kind, x⟩]
      notices := s.notices ++ [.syntaxError ⟨kind, x⟩] }
  obtain ⟨d, hd, hts⟩ :=
    advanceWhile_next_of_ahead (s := u) (fun k => !k.isBoundary) (fun _ _ => rfl) h
  exact ⟨u.moved d, hd, hts, rfl, rfl⟩

theorem mem_errors_of_fail {t : Parser} {kind : SyntaxError.Kind} {x : Token}
    (h : fail kind x s = .ok () t) : ⟨kind, x⟩ ∈ t.errors := by
  obtain ⟨us, hpass, -⟩ := fail_eq_ok h
  simp [hpass.errors]

theorem skipNewlines_of_upcoming (h : s.cursor.Upcoming ts) :
    ∃ d, skipNewlines s = .ok () (s.moved d) ∧
      d.Upcoming (ts.dropWhile Token.isLineBreak) := by
  induction ts generalizing s with
  | nil =>
    obtain ⟨us, hus⟩ := h.exists_cons
    cases hus
  | cons t ts ih =>
    have hcurrent : s.current = t := h.current_eq
    rw [skipNewlines_eq, hcurrent]
    by_cases ht : t.kind = .newline
    · obtain ⟨d, hd, hts⟩ := h.ahead (by simp [ht])
      obtain ⟨e, he, hrest⟩ := ih (s := s.moved d) hts
      have hbreak : t.isLineBreak := by simp [Token.isLineBreak, ht]
      rw [if_pos ht, bind_of_ok (advance_of_step hd), List.dropWhile_cons_of_pos hbreak]
      exact ⟨e, he, hrest⟩
    · have hstop : ¬t.isLineBreak := by simp [Token.isLineBreak, ht]
      rw [if_neg ht, List.dropWhile_cons_of_neg hstop]
      exact ⟨s.cursor, rfl, h⟩

end Parser

/-! ## Parsers side by side -/

namespace Comparison
variable {C : Comparison} {s s' t t' : Parser} {x x' : Token} {ts ts' : List Token}

/-- The parsers have recorded like statements and like errors. -/
structure Recorded (C : Comparison) (s s' : Parser) : Prop where
  statements : ∃ bs bs', s.statements = C.first.statements ++ bs ∧
    s'.statements = C.second.statements ++ bs' ∧ List.Forall₂ (Block.Alike C.alike) bs bs'
  errors : ∃ es es', s.errors = C.first.errors ++ es ∧ s'.errors = C.second.errors ++ es' ∧
    List.Forall₂ (SyntaxError.Alike C.alike) es es'

theorem recorded_start (C : Comparison) : C.Recorded C.first C.second where
  statements := ⟨[], [], (List.append_nil _).symm, (List.append_nil _).symm, .nil⟩
  errors := ⟨[], [], (List.append_nil _).symm, (List.append_nil _).symm, .nil⟩

/-- The tokens from the current ones on are beside each other. -/
structure Even (C : Comparison) (s s' : Parser) : Prop extends C.Recorded s s' where
  upcoming : ∃ ts ts', s.cursor.Upcoming ts ∧ s'.cursor.Upcoming ts' ∧ C.Beside ts ts'

/-- The tokens behind the current ones are beside each other. -/
structure Level (C : Comparison) (s s' : Parser) : Prop extends C.Recorded s s' where
  ahead : ∃ ts ts', s.cursor.Ahead ts ∧ s'.cursor.Ahead ts' ∧ C.Beside ts ts'

theorem Recorded.fail (h : C.Recorded s s') {kind : SyntaxError.Kind} (hx : C.alike x x')
    (hstatements : t.statements = s.statements) (herrors : t.errors = s.errors ++ [⟨kind, x⟩])
    (hstatements' : t'.statements = s'.statements)
    (herrors' : t'.errors = s'.errors ++ [⟨kind, x'⟩]) : C.Recorded t t' where
  statements := by rw [hstatements, hstatements']; exact h.statements
  errors := by
    obtain ⟨es, es', hes, hes', halike⟩ := h.errors
    refine ⟨es ++ [⟨kind, x⟩], es' ++ [⟨kind, x'⟩], ?_, ?_, ?_⟩
    · rw [herrors, hes, List.append_assoc]
    · rw [herrors', hes', List.append_assoc]
    · exact List.rel_append halike (.cons ⟨rfl, hx⟩ .nil)

/-- A failure at tokens that are alike, where the tokens ahead are beside each other but for those
that recovery passes over. -/
theorem Recorded.level_of_fail (h : C.Recorded s s') {kind : SyntaxError.Kind}
    (hx : C.alike x x') (hts : s.cursor.Ahead ts) (hts' : s'.cursor.Ahead ts')
    (hbeside : C.Beside (ts.dropWhile fun t => !t.kind.isBoundary)
      (ts'.dropWhile fun t => !t.kind.isBoundary)) (hf : Parser.fail kind x s = .ok () t) :
    ∃ t', Parser.fail kind x' s' = .ok () t' ∧ C.Level t t' := by
  obtain ⟨u, hu, hahead, hstatements, herrors⟩ := Parser.fail_of_ahead kind x hts
  obtain ⟨u', hu', hahead', hstatements', herrors'⟩ := Parser.fail_of_ahead kind x' hts'
  cases hf.symm.trans hu
  exact ⟨u', hu', h.fail hx hstatements herrors hstatements' herrors', _, _, hahead, hahead',
    hbeside⟩

namespace Level

theorem meets (h : C.Level s s') : C.Meets s.next s'.next := by
  obtain ⟨ts, ts', hts, hts', hbeside⟩ := h.ahead
  obtain ⟨x, us, x', us', rfl, rfl, hmeets⟩ := hbeside.exists_cons
  have hnext : s.next = x := hts.next_eq
  have hnext' : s'.next = x' := hts'.next_eq
  rw [hnext, hnext']
  exact hmeets

theorem advance (h : C.Level s s') (hs : s.advance = .ok () t) :
    ∃ t', s'.advance = .ok () t' ∧ C.Even t t' := by
  obtain ⟨ts, ts', ⟨d, hd, hts⟩, ⟨d', hd', hts'⟩, hbeside⟩ := h.ahead
  cases hs.symm.trans (Parser.advance_of_step hd)
  exact ⟨_, Parser.advance_of_step hd', ⟨h.statements, h.errors⟩, ts, ts', hts, hts', hbeside⟩

theorem consumeNewlines (h : C.Level s s') (hs : s.consumeNewlines = .ok () t) :
    ∃ t', s'.consumeNewlines = .ok () t' ∧ C.Level t t' := by
  obtain ⟨ts, ts', hts, hts', hbeside⟩ := h.ahead
  obtain ⟨d, hd, hrest⟩ := Parser.consumeNewlines_of_ahead hts
  obtain ⟨d', hd', hrest'⟩ := Parser.consumeNewlines_of_ahead hts'
  cases hs.symm.trans hd
  exact ⟨_, hd', ⟨h.statements, h.errors⟩, _, _, hrest, hrest', hbeside.dropNewlines⟩

/-- A failure at tokens that meet leaves the parsers level, if it is not at the end of a text that
the other one goes on behind. -/
theorem fail (h : C.Level s s') {kind : SyntaxError.Kind} (hx : C.Meets x x')
    (hf : Parser.fail kind x s = .ok () t) (hes : C.NoneAtEnd t.errors) :
    ∃ t', Parser.fail kind x' s' = .ok () t' ∧ C.Level t t' := by
  have hmem := Parser.mem_errors_of_fail hf
  obtain ⟨ts, ts', hts, hts', hbeside⟩ := h.ahead
  exact h.level_of_fail (hx.alike_of_mem hes hmem) hts hts' hbeside.dropToBoundary hf

theorem report (h : C.Level s s') {kind : SyntaxError.Kind} (hx : C.alike x x')
    (hs : Parser.report kind x s = .ok () t) :
    ∃ t', Parser.report kind x' s' = .ok () t' ∧ C.Level t t' := by
  cases hs
  exact ⟨_, rfl, h.toRecorded.fail hx rfl rfl rfl rfl, h.ahead⟩

theorem append (h : C.Level s s') {b b' : Block} (hb : b.Alike C.alike b')
    (hs : Parser.append b s = .ok () t) : ∃ t', Parser.append b' s' = .ok () t' ∧ C.Level t t' := by
  cases hs
  obtain ⟨bs, bs', hbs, hbs', halike⟩ := h.statements
  refine ⟨_, rfl, ⟨⟨bs ++ [b], bs' ++ [b'], ?_, ?_, ?_⟩, h.errors⟩, h.ahead⟩
  · exact (congrArg (· ++ [b]) hbs).trans (List.append_assoc ..)
  · exact (congrArg (· ++ [b']) hbs').trans (List.append_assoc ..)
  · exact List.rel_append halike (.cons hb .nil)

end Level

namespace Even

theorem meets (h : C.Even s s') : C.Meets s.current s'.current := by
  obtain ⟨ts, ts', hts, hts', hbeside⟩ := h.upcoming
  obtain ⟨x, us, x', us', rfl, rfl, hmeets⟩ := hbeside.exists_cons
  have hcurrent : s.current = x := hts.current_eq
  have hcurrent' : s'.current = x' := hts'.current_eq
  rw [hcurrent, hcurrent']
  exact hmeets

theorem skipNewlines (h : C.Even s s') (hs : s.skipNewlines = .ok () t) :
    ∃ t', s'.skipNewlines = .ok () t' ∧ C.Even t t' := by
  obtain ⟨ts, ts', hts, hts', hbeside⟩ := h.upcoming
  obtain ⟨d, hd, hrest⟩ := Parser.skipNewlines_of_upcoming hts
  obtain ⟨d', hd', hrest'⟩ := Parser.skipNewlines_of_upcoming hts'
  cases hs.symm.trans hd
  exact ⟨_, hd', ⟨h.statements, h.errors⟩, _, _, hrest, hrest', hbeside.dropNewlines⟩

/-- Behind a token other than a line break or the end of input. -/
theorem level (h : C.Even s s') (hn : s.current.kind ≠ .newline)
    (he : s.current.kind ≠ .endOfInput) : C.Level s s' := by
  refine ⟨h.toRecorded, ?_⟩
  obtain ⟨ts, ts', hts, hts', hbeside⟩ := h.upcoming
  obtain ⟨x, us, hcons⟩ : ∃ x us, ts = x :: us := ⟨_, hts.exists_cons⟩
  subst hcons
  have hcurrent : s.current = x := hts.current_eq
  rw [hcurrent] at hn he
  cases hbeside with
  | ended _ hend => exact absurd hend he
  | goesOn _ hend _ _ => exact absurd hend he
  | breaks _ hbs _ _ => exact absurd (hbs _ List.mem_cons_self) hn
  | token halike _ rest =>
    have he' := he
    rw [← C.kind_eq halike] at he'
    exact ⟨_, _, hts.ahead he, hts'.ahead he', rest⟩

/-- A failure at the current token passes over the line breaks that start there. -/
theorem fail (h : C.Even s s') {kind : SyntaxError.Kind}
    (hf : Parser.fail kind s.current s = .ok () t) (hes : C.NoneAtEnd t.errors) :
    ∃ t', Parser.fail kind s'.current s' = .ok () t' ∧ C.Level t t' := by
  have hmem := Parser.mem_errors_of_fail hf
  have halike : C.alike s.current s'.current := h.meets.alike_of_mem hes hmem
  obtain ⟨ts, ts', hts, hts', hbeside⟩ := h.upcoming
  cases hbeside with
  | ended halike' he =>
    have he' := (C.kind_eq halike').trans he
    exact h.level_of_fail halike (hts.ahead_self he).2 (hts'.ahead_self he').2
      (Beside.ended halike' he).dropToBoundary hf
  | goesOn hgo he _ _ =>
    have hcurrent : s.current = _ := hts.current_eq
    exact absurd (hcurrent ▸ he) (hes (by simp [hgo]) _ hmem)
  | @token y y' ts ts' halike' hne rest =>
    have he : y.kind ≠ .endOfInput := by
      intro he
      obtain ⟨rfl, -⟩ := hts.ahead_self he
      obtain ⟨_, _, _, _, hnil, -⟩ := rest.exists_cons
      cases hnil
    have he' : y'.kind ≠ .endOfInput := by rw [C.kind_eq halike']; exact he
    exact h.level_of_fail halike (hts.ahead he) (hts'.ahead he') rest.dropToBoundary hf
  | @breaks y y' bs bs' ts ts' _ hbs hbs' rest =>
    have hpassed : ∀ {bs : List Token}, (∀ b ∈ bs, b.kind = .newline) →
        ∀ b ∈ bs, !b.kind.isBoundary := by
      intro bs hbs b hb
      simp [isBoundary_of_newlines hbs b hb]
    have hy : y.kind ≠ .endOfInput := by simp [hbs y List.mem_cons_self]
    have hy' : y'.kind ≠ .endOfInput := by simp [hbs' y' List.mem_cons_self]
    have hws : s.cursor.Ahead (bs ++ ts) := hts.ahead hy
    have hws' : s'.cursor.Ahead (bs' ++ ts') := hts'.ahead hy'
    refine h.level_of_fail halike hws hws' ?_ hf
    rw [List.dropWhile_append_of_pos (hpassed (List.forall_mem_cons.1 hbs).2),
      List.dropWhile_append_of_pos (hpassed (List.forall_mem_cons.1 hbs').2)]
    exact rest.dropToBoundary

end Even

end Comparison
end SLFront
