import SLFront.Scanner

/-!
# Reading tokens

A lexer hands out the tokens of a source text one after the other, and can show the next one
without handing it out: it then keeps that token, while its scanner stands after it. A forbidden
word interrupts, and reading may go on behind it. Once the end of input has been reached, it is
handed out for ever.

`remaining` bounds how many tokens other than the end of input are still to come; it is what makes
reading to the end, and parsing, terminate.
-/
namespace SLFront

/-- A scanner, with the token that was looked at and not yet taken. -/
structure Lexer where
  scanner : Scanner
  peeked : Option Token := none
deriving DecidableEq, Repr

/-- One for a token, and nothing for the end of input, which is handed out without end. -/
def Token.weight (t : Token) : Nat := if t.kind = .endOfInput then 0 else 1

theorem Token.weight_le_one (t : Token) : t.weight ≤ 1 := by
  unfold weight; split <;> omega

theorem Token.weight_eq_one {t : Token} (h : t.kind ≠ .endOfInput) : t.weight = 1 := by
  simp [weight, h]

namespace Lexer

/-- A lexer at the start of a source text. -/
def start (source : String) (filename : String := Location.unnamed) : Lexer :=
  { scanner := .start source filename }

/-- Take the next token. -/
def next : EStateM LexicalError Lexer Token := fun l =>
  match l.peeked with
  | some t => .ok t { l with peeked := none }
  | none =>
    match l.scanner.scan with
    | .ok t s => .ok t { l with scanner := s }
    | .error e s => .error e { l with scanner := s }

/-- Look at the next token without taking it. A forbidden word is taken nevertheless. -/
def peek : EStateM LexicalError Lexer Token := fun l =>
  match l.peeked with
  | some t => .ok t l
  | none =>
    match l.scanner.scan with
    | .ok t s => .ok t { scanner := s, peeked := some t }
    | .error e s => .error e { l with scanner := s }

/-- A bound on the number of tokens still to come before the end of input. -/
def remaining (l : Lexer) : Nat := l.peeked.elim 0 Token.weight + l.scanner.rest.length

theorem remaining_of_next_eq_ok {l l' : Lexer} {t : Token} (h : l.next = .ok t l') :
    t.weight + l'.remaining ≤ l.remaining := by
  unfold next at h
  split at h
  · rename_i u hu
    cases h
    simp [remaining, hu]
  · rename_i hu
    split at h
    · rename_i t s hs
      cases h
      have := Scanner.length_rest_of_scan_eq_ok hs
      simp only [remaining, hu, Option.elim, Token.weight]
      omega
    · cases h

theorem remaining_of_next_eq_error {l l' : Lexer} {e : LexicalError} (h : l.next = .error e l') :
    l'.remaining < l.remaining := by
  unfold next at h
  split at h
  · cases h
  · rename_i hu
    split at h
    · cases h
    · rename_i e s hs
      cases h
      have := Scanner.length_rest_of_scan_eq_error hs
      simp only [remaining, hu, Option.elim]
      omega

/-- Take all tokens up to the end of input, which is the last one. -/
def drain (l : Lexer) : EStateM.Result LexicalError Lexer (List Token) :=
  match h : l.next with
  | .error e l => .error e l
  | .ok t l' =>
    if ht : t.kind = .endOfInput then .ok [t] l'
    else
      have : l'.remaining < l.remaining := by
        have := remaining_of_next_eq_ok h
        have := Token.weight_eq_one ht
        omega
      match drain l' with
      | .ok ts l'' => .ok (t :: ts) l''
      | .error e l'' => .error e l''
termination_by l.remaining

end Lexer

/-- The tokens of a source text, the last of which is the end of input. -/
def tokenize (source : String) (filename : String := Location.fromString) :
    Except LexicalError (List Token) :=
  match (Lexer.start source filename).drain with
  | .ok ts _ => .ok ts
  | .error e _ => .error e

end SLFront
