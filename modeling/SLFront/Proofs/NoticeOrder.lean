import SLFront.Proofs.Growth
import SLFront.Proofs.TokenStream

/-!
# The order of the notices

The parser leaves a notice at the token that it stands on or at the one after it. In the second case
it recovers, and stands in front of that token or behind it when it goes on. So the notices come in
the order of their tokens, and when a statement starts none of them is about a later token
(`Parser.Ready`). The same token can be the place of an error and then start a statement; it is
never the other way round, so the place of a placeholder between the errors is determined
(`Notice.Precedes`).

This is kept by every routine, and what it says of the notices left so far holds too where a
forbidden word interrupts the routine (`Parser.Ends`). A program is a loop of turns
(`Parser.allStatements_eq_turn`), and each turn that starts at a placeholder leaves one notice of it
(`Parser.exists_tells_allStatements`).
-/
namespace SLFront

/-! ## Tokens in source order -/

/-- The one token comes before the other, or it is the end of input, which comes again and again. -/
structure Token.Before (t u : Token) : Prop where
  le : t.location.offset ≤ u.location.offset
  lt : t.kind ≠ .endOfInput → t.location.offset < u.location.offset

theorem Lexer.before_of_next {l l₁ l₂ : Lexer} {t u : Token} (hp : l.peeked = none)
    (h : l.next = .ok t l₁) (h' : l₁.next = .ok u l₂) : t.Before u := by
  by_cases hend : t.kind = .endOfInput
  · have hagain := next_of_endOfInput hp h hend
    cases hagain.symm.trans h'
    exact ⟨Int.le_refl _, fun hne => absurd hend hne⟩
  · have ht := (Scanner.offset_of_scan (scan_of_next hp h)).2 hend
    have hu := (Scanner.offset_of_scan (scan_of_next (peeked_of_next h) h')).1
    exact ⟨by omega, fun _ => by omega⟩

/-- The tokens of the cursor stand in source order, and so will those that it comes to. -/
structure Cursor.InOrder (c : Cursor) : Prop where
  before : c.current.Before c.next
  taken : ∃ l : Lexer, l.peeked = none ∧ l.next = .ok c.next c.lexer

theorem Cursor.InOrder.step {c d : Cursor} (h : c.InOrder) (hs : c.step? = some d) :
    d.InOrder := by
  obtain ⟨l, hp, hl⟩ := h.taken
  unfold step? at hs
  split at hs
  · rename_i ht
    cases hs
    exact ⟨Lexer.before_of_next hp hl ht, c.lexer, Lexer.peeked_of_next hl, ht⟩
  · cases hs

theorem Parser.inOrder_of_start {l l' : Lexer} {s : Parser} (hp : l.peeked = none)
    (h : Parser.start l = .ok s l') : s.cursor.InOrder := by
  obtain ⟨t, l₁, u, h₁, h₂, rfl⟩ := start_eq_ok h
  exact ⟨Lexer.before_of_next hp h₁ h₂, l₁, Lexer.peeked_of_next h₁, h₂⟩

/-! ## Notices in source order -/

namespace Notice

/-- The token that a notice is about. -/
def token? : Notice → Option Token
  | syntaxError e => some e.token
  | placeholder keyword => some keyword
  | noInfix _ | finished _ _ => none

/-- The keyword of the statement that a notice says to be passed over. -/
def placeholder? : Notice → Option Token
  | placeholder keyword => some keyword
  | syntaxError _ | noInfix _ | finished _ _ => none

/-- A notice about a token at the given offset may come next. Errors may be at the same token, but
behind a placeholder comes a later one. -/
def Reaches (x : Int) : Notice → Prop
  | syntaxError e => e.token.location.offset ≤ x
  | placeholder keyword => keyword.location.offset < x
  | noInfix _ | finished _ _ => False

/-- The one notice may come before the other in the order of the source text. -/
def Precedes (n n' : Notice) : Prop := ∃ t ∈ n'.token?, n.Reaches t.location.offset

variable {x y : Int} {n : Notice}

theorem Reaches.mono (h : n.Reaches x) (hxy : x ≤ y) : n.Reaches y := by
  cases n with
  | syntaxError e => exact Int.le_trans h hxy
  | placeholder keyword => exact Int.lt_of_lt_of_le h hxy
  | noInfix | finished => exact h

theorem Reaches.isSome_token? (h : n.Reaches x) : n.token?.isSome := by
  cases n with
  | syntaxError | placeholder => rfl
  | noInfix | finished => exact h.elim

end Notice

namespace Parser
variable {s t u : Parser} {ks : List Token} {x y : Int}

/-- The notices of the parser are about its errors and the placeholders `ks`, in source order, and a
notice about a token at the offset `x` may come next. -/
structure Tells (ks : List Token) (x : Int) (s : Parser) : Prop where
  errors : s.notices.filterMap Notice.error? = s.errors
  placeholders : s.notices.filterMap Notice.placeholder? = ks
  order : s.notices.Pairwise Notice.Precedes
  reaches : ∀ n ∈ s.notices, n.Reaches x

namespace Tells

theorem mono (h : s.Tells ks x) (hxy : x ≤ y) : s.Tells ks y :=
  { h with reaches := fun n hn => (h.reaches n hn).mono hxy }

theorem of_notices_eq (h : s.Tells ks x) (hnotices : t.notices = s.notices)
    (herrors : t.errors = s.errors) : t.Tells ks x := by
  obtain ⟨hes, hks, horder, hreaches⟩ := h
  rw [← hnotices] at hes hks horder hreaches
  exact ⟨hes.trans herrors.symm, hks, horder, hreaches⟩

theorem moved (h : s.Tells ks x) (c : Cursor) : (s.moved c).Tells ks x := h.of_notices_eq rfl rfl

/-- A notice is added that may come next. -/
theorem snoc {n : Notice} {k : Token} (h : s.Tells ks k.location.offset) (hk : n.token? = some k)
    (hxy : k.location.offset ≤ y) (hn : n.Reaches y) (hnotices : t.notices = s.notices ++ [n])
    (herrors : t.errors = s.errors ++ n.error?.toList) :
    t.Tells (ks ++ n.placeholder?.toList) y where
  errors := by
    rw [hnotices, herrors, List.filterMap_append, h.errors, List.filterMap_cons]
    cases n.error? <;> rfl
  placeholders := by
    rw [hnotices, List.filterMap_append, h.placeholders, List.filterMap_cons]
    cases n.placeholder? <;> rfl
  order := by
    rw [hnotices]
    refine List.pairwise_append.2 ⟨h.order, List.pairwise_singleton .., fun m hm n' hn' => ?_⟩
    rw [List.mem_singleton.1 hn']
    exact ⟨k, hk, h.reaches m hm⟩
  reaches := by
    rw [hnotices, List.forall_mem_append, List.forall_mem_singleton]
    exact ⟨fun m hm => (h.reaches m hm).mono hxy, hn⟩

end Tells

/-- A notice about the given token may come next, and the parser reads tokens in source order. -/
structure Ready (ks : List Token) (s : Parser) (k : Token) : Prop where
  inOrder : s.cursor.InOrder
  tells : s.Tells ks k.location.offset

/-- The condition holds where the computation ends. Where it is interrupted the notices are about
the errors and the placeholders `ks`, in source order, all the same. -/
def Ends (ks : List Token) {α : Type} (Q : α → Parser → Prop) :
    EStateM.Result LexicalError Parser α → Prop
  | .ok a t => Q a t
  | .error _ t => ∃ x, t.Tells ks x

/-- A parser starts with no notices, and reads tokens in source order. -/
theorem ready_of_start {l l' : Lexer} (hp : l.peeked = none) (h : Parser.start l = .ok s l') :
    s.Ready [] s.current := by
  refine ⟨inOrder_of_start hp h, ?_⟩
  obtain ⟨t, l₁, u, -, -, rfl⟩ := start_eq_ok h
  exact ⟨rfl, rfl, .nil, List.forall_mem_nil _⟩

namespace Ends
variable {α β : Type} {Q : α → Parser → Prop} {S : β → Parser → Prop}

theorem bind {m : Parse α} {f : α → Parse β} (hm : Ends ks Q (m s))
    (hf : ∀ a t, m s = .ok a t → Q a t → Ends ks S (f a t)) : Ends ks S ((m >>= f) s) := by
  cases h : m s with
  | ok a t =>
    rw [h] at hm
    rw [bind_of_ok h]
    exact hf a t h hm
  | error e t =>
    rw [h] at hm
    rw [bind_of_error h]
    exact hm

theorem get {f : Parser → Parse β} (hf : Ends ks S (f s s)) :
    Ends ks S ((MonadState.get >>= f) s) := hf

theorem ite {c : Prop} [Decidable c] {m n : Parse α} (hm : c → Ends ks Q (m s))
    (hn : ¬c → Ends ks Q (n s)) : Ends ks Q ((if c then m else n : Parse α) s) := by
  split <;> rename_i hc
  · exact hm hc
  · exact hn hc

end Ends

/-! ## Steps -/

namespace Ready

/-- Standing on a token is standing in front of the next one. -/
theorem ahead (h : s.Ready ks s.current) : s.Ready ks s.next :=
  ⟨h.inOrder, h.tells.mono h.inOrder.before.le⟩

theorem advance (h : s.Ready ks s.next) : Ends ks (fun _ t => t.Ready ks t.current) s.advance := by
  cases hs : s.advance with
  | ok _ t =>
    obtain ⟨c, hc, rfl⟩ := advance_eq_ok_iff.1 hs
    refine ⟨h.inOrder.step hc, ?_⟩
    rw [current_moved, Cursor.current_of_step hc]
    exact h.tells.moved c
  | error e t =>
    obtain ⟨c, hc⟩ := exists_after_advance_eq_moved s
    rw [hs] at hc
    exact ⟨_, hc ▸ h.tells.moved c⟩

/-- Skipping keeps what moving on keeps. -/
theorem advanceWhile {P : Parser → Prop} (hP : ∀ u, P u → u.Ready ks u.next)
    (hadvance : ∀ u, u.Ready ks u.current → P u) (test : Token.Kind → Token.Kind → Bool)
    (stops : test .endOfInput .endOfInput = false) (h : P s) :
    Ends ks (fun _ t => P t) (advanceWhile test stops s) := by
  fun_induction Parser.advanceWhile test stops s with
  | case1 s _ _ t hs _ ih =>
    have hstep := (hP s h).advance
    rw [hs] at hstep
    exact ih (hadvance t hstep)
  | case2 s _ e t hs =>
    have hstep := (hP s h).advance
    rw [hs] at hstep
    exact hstep
  | case3 => exact h

theorem skipNewlines (h : s.Ready ks s.current) :
    Ends ks (fun _ t => t.Ready ks t.current) (skipNewlines s) :=
  advanceWhile (fun _ hu => hu.ahead) (fun _ hu => hu) _ _ h

theorem consumeNewlines (h : s.Ready ks s.next) :
    Ends ks (fun _ t => t.Ready ks t.next) (consumeNewlines s) :=
  advanceWhile (fun _ hu => hu) (fun _ hu => hu.ahead) _ _ h

/-- Behind an error at the current token or at the next one, the parser is in front of the next. -/
theorem report (kind : SyntaxError.Kind) {k : Token} (h : s.Ready ks k)
    (hk : k = s.current ∨ k = s.next) :
    Ends ks (fun _ t => t.Ready ks t.next) (report kind k s) := by
  have hle : k.location.offset ≤ s.next.location.offset := by
    rcases hk with rfl | rfl
    · exact h.inOrder.before.le
    · exact Int.le_refl _
  have htells := h.tells.snoc (n := .syntaxError ⟨kind, k⟩) (t := after (Parser.report kind k s))
    rfl hle hle rfl rfl
  exact ⟨h.inOrder, List.append_nil ks ▸ htells⟩

theorem fail (kind : SyntaxError.Kind) {k : Token} (h : s.Ready ks k)
    (hk : k = s.current ∨ k = s.next) : Ends ks (fun _ t => t.Ready ks t.next) (fail kind k s) :=
  (h.report kind hk).bind fun _ _ _ ht =>
    advanceWhile (fun _ hu => hu) (fun _ hu => hu.ahead) _ _ ht

end Ready

/-! ## Routines -/

/-- Behind what it has found a routine stands on the last token of it; where it has failed it is in
front of the next one. -/
def Found (ks : List Token) {α : Type} : Option α → Parser → Prop
  | some _, t => t.Ready ks t.current
  | none, t => t.Ready ks t.next

theorem Ready.found_fail {α : Type} (kind : SyntaxError.Kind) {k : Token} (h : s.Ready ks k)
    (hk : k = s.current ∨ k = s.next) :
    Ends ks (Found ks) ((do Parser.fail kind k; return none : Parse (Option α)) s) :=
  (h.fail kind hk).bind fun _ _ _ ht => ht

/-- What an expression that is asked for with a level of precedence leaves behind. -/
theorem ready_expression_operators :
    (∀ p s, 0 ≤ p → s.Ready ks s.current → Ends ks (Found ks) (expression p s)) ∧
      ∀ p left s, 0 ≤ p → s.Ready ks s.current → Ends ks (Found ks) (operators p left s) := by
  apply expression_operators_induction
  case noPrefix =>
    intro p s ho _ h
    rw [expression_eq_of_none ho]
    exact h.found_fail _ (.inl rfl)
  case identifier =>
    intro p s ho hrest hp h
    rw [expression_eq_of_identifier ho]
    exact hrest hp h
  case number =>
    intro p s ho hrest hp h
    rw [expression_eq_of_number ho]
    exact hrest hp h
  case prefixOp =>
    intro p s ho hcalls hp h
    rw [expression_eq_of_operator ho]
    refine h.ahead.advance.bind fun _ s₁ h₁ ready₁ => ?_
    obtain ⟨hoperand, hrest⟩ := hcalls s₁ h₁
    refine (hoperand (by decide) ready₁).bind fun right s₂ h₂ ready₂ => ?_
    cases right with
    | none => exact ready₂
    | some right => exact hrest right s₂ h₂ hp ready₂
  case group =>
    intro p s ho hcalls hp h
    rw [expression_eq_of_group ho]
    refine h.ahead.advance.bind fun _ s₁ h₁ ready₁ => ready₁.skipNewlines.bind
      fun _ s₂ h₂ ready₂ => ?_
    obtain ⟨hinner, hrest⟩ := hcalls s₁ s₂ h₁ h₂
    refine (hinner (by decide) ready₂).bind fun inner s₃ h₃ ready₃ => ?_
    cases inner with
    | none => exact ready₃
    | some inner =>
      have ready₃ : s₃.Ready ks s₃.next := Ready.ahead ready₃
      refine .get (.ite (fun hclosed => ?_) fun _ => ready₃.found_fail _ (.inr rfl))
      exact ready₃.advance.bind fun _ s₄ h₄ ready₄ => hrest inner s₃ s₄ h₃ hclosed h₄ hp ready₄
  case stop =>
    intro p left s hs hp h
    cases hq : s.next.kind.precedence? with
    | none =>
      have hlow : ¬(p < Precedence.lowest.level ∧ s.next.kind.endsExpression = false) :=
        fun hlow => Int.not_lt.2 hp hlow.1
      rw [operators_eq_of_none hq, if_neg hlow]
      exact h
    | some q =>
      rw [operators_eq_of_le hq (hs q hq)]
      exact h
  case infixOp =>
    intro p left s q hq hpq hcalls hp h
    rw [operators_eq_of_lt hq hpq]
    refine h.ahead.advance.bind fun _ s₁ h₁ ready₁ => ready₁.ahead.advance.bind
      fun _ s₂ h₂ ready₂ => ready₂.skipNewlines.bind fun _ s₃ h₃ ready₃ => ?_
    obtain ⟨hoperand, hrest⟩ := hcalls s₁ s₂ s₃ h₁ h₂ h₃
    refine (hoperand (by omega) ready₃).bind fun right s₄ h₄ ready₄ => ?_
    cases right with
    | none => exact ready₄
    | some right => exact hrest right s₄ h₄ hp ready₄

theorem Ready.expression {p : Int} (h : s.Ready ks s.current) (hp : 0 ≤ p) :
    Ends ks (Found ks) (expression p s) := ready_expression_operators.1 p s hp h

theorem Ready.declarationValue (h : s.Ready ks s.current) (name : Token)
    (typeName : Option Token) : Ends ks (Found ks) (declarationValue name typeName s) := by
  refine .get (.ite (fun _ => ?_) fun _ => h.ahead.found_fail _ (.inr rfl))
  refine h.ahead.advance.bind fun _ s₁ _ h₁ => h₁.ahead.advance.bind fun _ s₂ _ h₂ => ?_
  refine (h₂.expression (by decide)).bind fun value s₃ _ h₃ => ?_
  cases value <;> exact h₃

theorem Ready.declaration (h : s.Ready ks s.current) : Ends ks (Found ks) s.declaration := by
  refine .get (.ite (fun _ => ?_) fun _ => h.declarationValue _ _)
  refine h.ahead.advance.bind fun _ s₁ _ h₁ => ?_
  refine .get (.ite (fun _ => ?_) fun _ => h₁.ahead.found_fail _ (.inr rfl))
  exact h₁.ahead.advance.bind fun _ s₂ _ h₂ => h₂.declarationValue _ _

theorem Ready.declarations (h : s.Ready ks s.next) :
    Ends ks (fun _ t => t.Ready ks t.next) s.declarations := by
  induction hn : s.remaining using Nat.strongRecOn generalizing s with
  | _ n ih =>
    subst hn
    rw [declarations_eq]
    refine .ite (fun hi => ?_) fun _ => h
    refine h.advance.bind fun _ s₁ h₁ ready₁ => ready₁.declaration.bind fun d s₂ h₂ ready₂ => ?_
    have lt₁ := (alive_of_identifier hi).lt_of_advance h₁
    have lt₂ := Nat.lt_of_le_of_lt (settles_declaration.le_of_eq_ok h₂) lt₁
    cases d with
    | none => exact ready₂
    | some d =>
      refine (Ready.ahead ready₂).consumeNewlines.bind fun _ s₃ h₃ ready₃ => ?_
      have lt₃ := Nat.lt_of_le_of_lt (settles_consumeNewlines.le_of_eq_ok h₃) lt₂
      exact (ih _ lt₃ ready₃ rfl).bind fun _ _ _ ready₄ => ready₄

theorem Ready.blockBody (h : s.Ready ks s.next) (keyword : Token) :
    Ends ks (fun _ t => t.Ready ks t.next) (blockBody keyword s) := by
  refine h.consumeNewlines.bind fun _ s₁ _ h₁ => .get (.ite (fun _ => ?_) fun _ => ?_)
  · exact h₁.declarations.bind fun _ _ _ h₂ => h₂
  · exact (h₁.fail _ (.inr rfl)).bind fun _ _ _ h₂ => h₂

theorem Ready.block (h : s.Ready ks s.current) :
    Ends ks (fun _ t => t.Ready ks t.next) s.block :=
  .get (.ite (fun _ => h.ahead.blockBody _) fun _ =>
    (h.report _ (.inl rfl)).bind fun _ _ _ h₁ => h₁.blockBody _)

/-! ## Programs -/

/-- The placeholders among the tokens. -/
def placeholders (ts : List Token) : List Token := ts.filter (·.kind.isPlaceholder)

theorem placeholders_cons (t : Token) (ts : List Token) :
    placeholders (t :: ts) = placeholders [t] ++ placeholders ts := List.filter_append [t] ts

/-- A statement leaves a notice of its first token, if that is a placeholder, and none of another
placeholder. -/
theorem Ready.statement (h : s.Ready ks s.current) (hend : s.current.kind ≠ .endOfInput) :
    Ends (ks ++ placeholders [s.current])
      (fun _ t => t.Ready (ks ++ placeholders [s.current]) t.next) s.statement := by
  cases hplaceholder : s.current.kind.isPlaceholder with
  | false =>
    have hks : ks ++ placeholders [s.current] = ks := by simp [placeholders, hplaceholder]
    rw [hks]
    refine .get (.ite (fun _ => h.ahead) fun _ => .ite (fun _ => ?_) fun _ => ?_)
    · exact h.block.bind fun _ _ _ h₁ => h₁
    · rw [if_neg (by simp [hplaceholder])]
      exact (h.fail _ (.inl rfl)).bind fun _ _ _ h₁ => h₁
  | true =>
    have hks : placeholders [s.current] = [s.current] := by simp [placeholders, hplaceholder]
    obtain ⟨hnewline, hopens⟩ := Token.Kind.ne_newline_of_isPlaceholder hplaceholder
    have htells := h.tells.snoc (n := .placeholder s.current)
      (t := after (notify (.placeholder s.current) s)) rfl h.inOrder.before.le
      (h.inOrder.before.lt hend) rfl (List.append_nil _).symm
    rw [hks]
    refine .get ?_
    rw [if_neg hnewline, if_neg (by simp [hopens]), if_pos hplaceholder]
    exact ⟨h.inOrder, htells⟩

/-- A turn of a program: a statement, its record, and the step behind it. -/
def turn : Parse Unit := do
  append? (← statement)
  advance

/-- As long as the input lasts there is one more turn. -/
theorem allStatements_eq_turn (s : Parser) :
    allStatements s = (if s.current.kind = .endOfInput then return ()
      else do turn; allStatements : Parse Unit) s := by
  rw [allStatements_eq]
  simp only [turn, bind_assoc]

theorem remaining_turn_lt (hc : s.current.kind ≠ .endOfInput) (h : turn s = .ok () t) :
    t.remaining < s.remaining := by
  obtain ⟨b, u, hb, h⟩ := bind_eq_ok_iff.1 h
  obtain ⟨_, u', ha, hv⟩ := bind_eq_ok_iff.1 h
  exact remaining_lt_of_turn hc hb ha hv

/-- The tokens with which the turns of a program start, up to the end of input or to the turn that a
forbidden word interrupts. -/
def turnTokens (s : Parser) : List Token :=
  if hc : s.current.kind = .endOfInput then []
  else s.current :: match hturn : turn s with
    | .ok _ t =>
      have : t.remaining < s.remaining := remaining_turn_lt hc hturn
      turnTokens t
    | .error _ _ => []
termination_by s.remaining

theorem turnTokens_of_ok (hc : s.current.kind ≠ .endOfInput) (ht : turn s = .ok () t) :
    s.turnTokens = s.current :: t.turnTokens := by
  rw [turnTokens, dif_neg hc]
  split <;> rename_i ht'
  · cases ht.symm.trans ht'
    rfl
  · cases ht.symm.trans ht'

theorem turnTokens_of_error {e : LexicalError} (hc : s.current.kind ≠ .endOfInput)
    (ht : turn s = .error e t) : s.turnTokens = [s.current] := by
  rw [turnTokens, dif_neg hc]
  split <;> rename_i ht'
  · cases ht.symm.trans ht'
  · rfl

theorem Ready.turn (h : s.Ready ks s.current) (hend : s.current.kind ≠ .endOfInput) :
    Ends (ks ++ placeholders [s.current])
      (fun _ t => t.Ready (ks ++ placeholders [s.current]) t.current) s.turn := by
  refine (h.statement hend).bind fun b s₁ _ h₁ => ?_
  refine Ends.bind (Q := fun _ t => t.Ready _ t.next) ?_ fun _ s₂ _ h₂ => h₂.advance
  cases b with
  | none => exact h₁
  | some b => exact ⟨h₁.inOrder, h₁.tells.of_notices_eq rfl rfl⟩

/-- The notices of a program are about its errors and about the placeholders with which its turns
start, in source order, whether or not it is interrupted. -/
theorem exists_tells_allStatements (h : s.Ready ks s.current) :
    ∃ x, (after (allStatements s)).Tells (ks ++ placeholders s.turnTokens) x := by
  induction hr : s.remaining using Nat.strongRecOn generalizing s ks with
  | _ n ih =>
    subst hr
    rw [allStatements_eq_turn]
    by_cases hend : s.current.kind = .endOfInput
    · rw [if_pos hend, turnTokens, dif_pos hend, placeholders, List.filter_nil, List.append_nil]
      exact ⟨_, h.tells⟩
    · have hturn := h.turn hend
      rw [if_neg hend]
      cases ht : s.turn with
      | ok _ t =>
        rw [ht] at hturn
        rw [bind_of_ok ht, turnTokens_of_ok hend ht, placeholders_cons, ← List.append_assoc]
        exact ih _ (remaining_turn_lt hend ht) hturn rfl
      | error e t =>
        rw [ht] at hturn
        rw [bind_of_error ht, turnTokens_of_error hend ht]
        exact hturn

end Parser
end SLFront
