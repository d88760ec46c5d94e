import SLFront.Parser.State

/-!
# Skipping tokens

The parser skips line breaks where they do not matter, and after an error everything up to the next
token that starts a statement. That token is left as the next one, so that the program goes on with
it.
-/
namespace SLFront.Parser

/-- Move on while the types of the current and the next token satisfy a test, which has to fail at
the end of input. -/
def advanceWhile (test : Token.Kind → Token.Kind → Bool)
    (stops : test .endOfInput .endOfInput = false) : Parse Unit := fun s =>
  if ht : test s.current.kind s.next.kind then
    match hs : s.advance with
    | .ok _ s' =>
      have : s'.remaining < s.remaining := by
        have halive : s.Alive := by
          by_cases hc : s.current.kind = .endOfInput
          · refine .inr fun hn => ?_
            rw [hc, hn, stops] at ht
            exact Bool.noConfusion ht
          · exact .inl hc
        have := remaining_advance_lt halive
        rwa [hs] at this
      advanceWhile test stops s'
    | .error e s' => .error e s'
  else .ok () s
termination_by s => s.remaining

/-- Moving on while a test holds is one step and the same again, if it holds at all. -/
theorem advanceWhile_eq (test : Token.Kind → Token.Kind → Bool)
    (stops : test .endOfInput .endOfInput = false) (s : Parser) :
    advanceWhile test stops s =
      if test s.current.kind s.next.kind then (do advance; advanceWhile test stops : Parse Unit) s
      else .ok () s := by
  rw [advanceWhile]
  split
  · simp only [bind, EStateM.bind]
    split <;> simp [*]
  · rfl

theorem settles_advanceWhile (test : Token.Kind → Token.Kind → Bool)
    (stops : test .endOfInput .endOfInput = false) : Settles (advanceWhile test stops) := by
  intro s
  fun_induction advanceWhile test stops s with
  | case1 s _ _ _ hs _ ih =>
    have := remaining_advance_le s
    rw [hs] at this
    exact Nat.le_trans ih this
  | case2 s _ _ _ hs =>
    have := remaining_advance_le s
    rwa [hs] at this
  | case3 s _ => exact Nat.le_refl _

/-- Move on while the next token is a line break. -/
def consumeNewlines : Parse Unit := advanceWhile (fun _ next => next = .newline) rfl

/-- Move on while the current token is a line break. -/
def skipNewlines : Parse Unit := advanceWhile (fun current _ => current = .newline) rfl

/-- Move on until the next token is one at which recovery stops. -/
def synchronize : Parse Unit := advanceWhile (fun _ next => !next.isBoundary) rfl

/-- Record a syntax error and skip what is left of the statement. -/
def fail (kind : SyntaxError.Kind) (token : Token) : Parse Unit := do
  report kind token
  synchronize

theorem settles_consumeNewlines : Settles consumeNewlines := settles_advanceWhile _ _
theorem settles_skipNewlines : Settles skipNewlines := settles_advanceWhile _ _
theorem settles_synchronize : Settles synchronize := settles_advanceWhile _ _
theorem settles_fail (kind : SyntaxError.Kind) (token : Token) : Settles (fail kind token) :=
  (settles_report kind token).bind fun _ => settles_synchronize

end SLFront.Parser
