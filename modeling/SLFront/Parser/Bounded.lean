import SLFront.Parser.State

/-!
# Outcomes with a bound

The expression parser calls itself on the states that its own calls leave behind. A `Bounded`
outcome carries the proof that such a state has few enough tokens left for the next call, and
`andThen` hands that proof to what comes next. Its plain part, `result`, is that of the computation
without bounds (`result_andThen`).
-/
namespace SLFront.Parser

/-- The outcome of a computation that ends with at most `n` steps remaining. -/
structure Bounded (n : Nat) (α : Type) where
  result : EStateM.Result LexicalError Parser α
  remaining_le : (after result).remaining ≤ n

namespace Bounded
variable {α β : Type} {m n : Nat}

/-- The outcome of a computation that gives no tokens back. -/
def run (c : Parse α) (hc : Settles c) (s : Parser) : Bounded s.remaining α := ⟨c s, hc s⟩

/-- The outcome of moving on from a token other than the end of input. -/
def advance (s : Parser) (h : s.Alive) : Bounded (s.remaining - 1) Unit :=
  ⟨s.advance, by have := remaining_advance_lt h; omega⟩

/-- The same outcome under a weaker bound. -/
def mono (o : Bounded m α) (h : m ≤ n) : Bounded n α :=
  ⟨o.result, Nat.le_trans o.remaining_le h⟩

/-- Go on with the value and the state of an outcome. -/
def andThen (o : Bounded m α) (h : m ≤ n)
    (f : (a : α) → (s : Parser) → s.remaining ≤ m → Bounded n β) : Bounded n β :=
  match o with
  | ⟨.ok a s, hs⟩ => f a s hs
  | ⟨.error e s, hs⟩ => ⟨.error e s, Nat.le_trans hs h⟩

@[simp] theorem result_run (c : Parse α) (hc : Settles c) (s : Parser) :
    (run c hc s).result = c s := rfl
@[simp] theorem result_advance (s : Parser) (h : s.Alive) :
    (advance s h).result = s.advance := rfl
@[simp] theorem result_mono (o : Bounded m α) (h : m ≤ n) : (o.mono h).result = o.result := rfl

/-- Without its bounds, going on is sequencing. -/
theorem result_andThen {o : Bounded m α} {h : m ≤ n}
    {f : (a : α) → (s : Parser) → s.remaining ≤ m → Bounded n β}
    {c : Parse α} {g : α → Parse β} {s : Parser} (ho : o.result = c s)
    (hf : ∀ a t ht, (f a t ht).result = g a t) : (o.andThen h f).result = (c >>= g) s := by
  show _ = EStateM.bind c g s
  unfold EStateM.bind andThen
  rw [← ho]
  split
  · exact hf ..
  · rfl

end Bounded
end SLFront.Parser
