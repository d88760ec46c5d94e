import SLFront.Lexer
import SLFront.Notice
import SLFront.Precedence
import SLFront.Tree

/-!
# The state of a parser

A parser holds two tokens, the current one and the next, and what it has produced so far. Reading
one more token may meet a forbidden word: the step is then left half done, with the token that was
next as the current one too, and nothing that was recorded before is lost.

`Parser.remaining` decreases with every step that moves on from a token other than the end of input
(`remaining_of_advance`), which is why all loops of the parser end.
-/
namespace SLFront

/-- A parser on its way through a source text. -/
structure Parser where
  lexer : Lexer
  current : Token
  next : Token
  statements : List Block := []
  errors : List SyntaxError := []
  notices : List Notice := []
deriving DecidableEq, Repr

/-- A computation on a parser, which a forbidden word may interrupt. -/
abbrev Parse := EStateM LexicalError Parser

namespace Parser

/-- A parser on the tokens that a lexer has left. It takes the first two of them. -/
def start : EStateM LexicalError Lexer Parser := do
  let current ← Lexer.next
  let next ← Lexer.next
  return { lexer := ← get, current, next }

/-- Move on by one token. -/
def advance : Parse Unit := fun s =>
  match s.lexer.next with
  | .ok t l => .ok () { s with lexer := l, current := s.next, next := t }
  | .error e l => .error e { s with lexer := l, current := s.next }

/-- Leave a notice. -/
def notify (n : Notice) : Parse Unit :=
  modify fun s => { s with notices := s.notices ++ [n] }

/-- Record a syntax error, without moving. -/
def report (kind : SyntaxError.Kind) (token : Token) : Parse Unit :=
  modify fun s =>
    { s with
      errors := s.errors ++ [⟨kind, token⟩]
      notices := s.notices ++ [.syntaxError ⟨kind, token⟩] }

/-- Record a finished statement. -/
def append (b : Block) : Parse Unit :=
  modify fun s => { s with statements := s.statements ++ [b] }

/-- Whether a syntax error has been recorded. -/
def hasErrors (s : Parser) : Bool := !s.errors.isEmpty

/-! ## Termination -/

/-- A bound on the steps that still move on from a token other than the end of input. -/
def remaining (s : Parser) : Nat := s.current.weight + 2 * (s.next.weight + s.lexer.remaining)

/-- Not both tokens of the parser are the end of input. -/
def Alive (s : Parser) : Prop := s.current.kind ≠ .endOfInput ∨ s.next.kind ≠ .endOfInput

theorem Alive.weight_pos {s : Parser} (h : s.Alive) : 0 < s.current.weight + s.next.weight := by
  rcases h with h | h <;> rw [Token.weight_eq_one h] <;> omega

/-- The state in which a computation ends. -/
def after {α : Type} : EStateM.Result LexicalError Parser α → Parser
  | .ok _ s | .error _ s => s

@[simp] theorem after_ok {α : Type} (a : α) (s : Parser) :
    after (.ok a s : EStateM.Result LexicalError Parser α) = s := rfl
@[simp] theorem after_error {α : Type} (e : LexicalError) (s : Parser) :
    after (.error e s : EStateM.Result LexicalError Parser α) = s := rfl

/-- Moving on changes the two tokens and the lexer, even when it is interrupted. -/
theorem after_advance (s : Parser) : ∃ l t,
    after s.advance = { s with lexer := l, current := s.next, next := t } := by
  unfold advance
  split <;> exact ⟨_, _, rfl⟩

theorem remaining_advance_le (s : Parser) : (after s.advance).remaining ≤ s.remaining := by
  unfold advance
  split
  · rename_i t l h
    have := Lexer.remaining_of_next_eq_ok h
    simp only [after_ok, remaining]
    omega
  · rename_i e l h
    have := Lexer.remaining_of_next_eq_error h
    have := Token.weight_le_one s.next
    simp only [after_error, remaining]
    omega

theorem remaining_advance_lt {s : Parser} (h : s.Alive) :
    (after s.advance).remaining < s.remaining := by
  have hw := h.weight_pos
  unfold advance
  split
  · rename_i t l h
    have := Lexer.remaining_of_next_eq_ok h
    simp only [after_ok, remaining]
    omega
  · rename_i e l h
    have := Lexer.remaining_of_next_eq_error h
    have := Token.weight_le_one s.next
    simp only [after_error, remaining]
    omega

/-- A computation that gives no tokens back. -/
def Settles {α : Type} (m : Parse α) : Prop := ∀ s, (after (m s)).remaining ≤ s.remaining

theorem settles_advance : Settles advance := remaining_advance_le
theorem settles_notify (n : Notice) : Settles (notify n) := fun _ => Nat.le_refl _
theorem settles_report (kind : SyntaxError.Kind) (token : Token) : Settles (report kind token) :=
  fun _ => Nat.le_refl _
theorem settles_pure {α : Type} (a : α) : Settles (pure a : Parse α) := fun _ => Nat.le_refl _
theorem settles_get : Settles (get : Parse Parser) := fun _ => Nat.le_refl _

theorem Settles.bind {α β : Type} {m : Parse α} {f : α → Parse β} (hm : Settles m)
    (hf : ∀ a, Settles (f a)) : Settles (m >>= f) := by
  intro s
  have h := hm s
  show (after (EStateM.bind m f s)).remaining ≤ _
  unfold EStateM.bind
  split
  · rename_i a t heq
    rw [heq] at h
    exact Nat.le_trans (hf a t) h
  · rename_i e t heq
    rw [heq] at h
    exact h

theorem Settles.ite {α : Type} {c : Prop} [Decidable c] {m n : Parse α} (hm : Settles m)
    (hn : Settles n) : Settles (if c then m else n) := by
  split <;> assumption

end Parser
end SLFront
