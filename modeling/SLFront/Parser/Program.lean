import SLFront.Parser.Block

/-!
# Parsing programs

A program is read statement by statement up to the end of input. Line breaks between statements and
statements that are not parsed yet leave nothing behind; any other token that opens no statement is
an error.
-/
namespace SLFront
namespace Parser

/-- Parse the statement that starts at the current token. Its last token becomes the current one. -/
def statement : Parse (Option Block) := do
  let t := (← get).current
  if t.kind = .newline then
    return none
  else if t.kind.opensBlock then
    return some (← block)
  else if t.kind.isPlaceholder then
    notify (.placeholder t)
    return none
  else
    fail .unexpectedExpression t
    return none

/-- Record a statement, if there is one. -/
def append? : Option Block → Parse Unit
  | none => pure ()
  | some b => append b

theorem settles_statement : Settles statement :=
  settles_get.bind fun _ =>
    Settles.ite (settles_pure _) <|
    Settles.ite (settles_block.bind fun _ => settles_pure _) <|
    Settles.ite ((settles_notify _).bind fun _ => settles_pure _)
      ((settles_fail _ _).bind fun _ => settles_pure _)

theorem settles_append? (b : Option Block) : Settles (append? b) := by
  cases b <;> exact fun _ => Nat.le_refl _

/-- Reading a statement and moving on gets ahead: when the statement has used up no token it leaves
the parser alive, since the bounds of a live and a dead state differ in parity. -/
theorem remaining_advance_lt_of_le {s t : Parser} (hs : s.current.kind ≠ .endOfInput)
    (h : t.remaining ≤ s.remaining) : (after t.advance).remaining < s.remaining := by
  by_cases alive : t.Alive
  · exact Nat.lt_of_lt_of_le (remaining_advance_lt alive) h
  · refine Nat.lt_of_le_of_lt (remaining_advance_le t) ?_
    have hc : t.current.weight = 0 := by
      by_cases hc : t.current.kind = .endOfInput
      · simp [Token.weight, hc]
      · exact absurd (.inl hc) alive
    have := Token.weight_eq_one hs
    unfold remaining at h ⊢
    omega

/-- The outcome of `allStatements`, with its bound. -/
def boundedStatements (s : Parser) : Bounded s.remaining Unit :=
  if hc : s.current.kind = .endOfInput then ⟨.ok () s, Nat.le_refl _⟩
  else
    have pos := remaining_pos (.inl hc)
    (Bounded.run statement settles_statement s).andThen (Nat.le_refl _) fun b s₁ h₁ =>
    (Bounded.run (append? b) (settles_append? b) s₁).andThen h₁ fun _ s₂ h₂ =>
    have hlt := remaining_advance_lt_of_le hc (Nat.le_trans h₂ h₁)
    (⟨s₂.advance, Nat.le_sub_one_of_lt hlt⟩ : Bounded (s.remaining - 1) Unit).andThen (by omega)
      fun _ s₃ h₃ => (boundedStatements s₃).mono (by omega)
termination_by s.remaining

/-- Parse and record all statements from the current token on. -/
def allStatements : Parse Unit := fun s => (boundedStatements s).result

/-- As long as the input lasts there is one more statement. -/
theorem allStatements_eq (s : Parser) :
    allStatements s = (if s.current.kind = .endOfInput then return ()
      else do
        let b ← statement
        append? b
        advance
        allStatements : Parse Unit) s := by
  unfold allStatements
  rw [boundedStatements]
  by_cases hc : s.current.kind = .endOfInput
  · rw [dif_pos hc, if_pos hc]
    rfl
  · rw [dif_neg hc, if_neg hc]
    exact Bounded.result_andThen rfl fun _ _ _ => Bounded.result_andThen rfl fun _ _ _ =>
      Bounded.result_andThen rfl fun _ _ _ => rfl

/-- Parse a program from the current token on, and say whether there are syntax errors. -/
def program : Parse Bool := do
  allStatements
  let s ← get
  notify (.finished s.statements.length s.errors.length)
  return s.hasErrors

end Parser

/-! ## Parsing source texts -/

/-- How a computation on the parser of a source text ends. -/
inductive Parser.Run (α : Type)
  /-- One of the first two tokens is a forbidden word, and there is no parser. -/
  | unstarted (e : LexicalError)
  /-- The computation met a forbidden word. -/
  | interrupted (e : LexicalError) (parser : Parser)
  | finished (value : α) (parser : Parser)
deriving DecidableEq, Repr

namespace Parser.Run
variable {α : Type}

/-- The value and the final parser, or the error. -/
def toExcept : Run α → Except LexicalError (α × Parser)
  | unstarted e | interrupted e _ => .error e
  | finished value parser => .ok (value, parser)

end Parser.Run

/-- Run a computation on the parser of a source text. -/
def Parser.run {α : Type} (c : Parse α) (source filename : String) : Run α :=
  match Parser.start (.start source filename) with
  | .error e _ => .unstarted e
  | .ok s _ =>
    match c s with
    | .error e t => .interrupted e t
    | .ok a t => .finished a t

/-- The statements and the syntax errors of a source text. -/
def parse (source : String) (filename : String := Location.fromString) :
    Except LexicalError (List Block × List SyntaxError) :=
  (Parser.run Parser.program source filename).toExcept.map fun (_, s) => (s.statements, s.errors)

end SLFront
