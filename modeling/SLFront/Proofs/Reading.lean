import SLFront.Parser.Recovery
import Mathlib.Tactic.Common

/-!
# Reading tokens one after the other

A parser stands at a cursor: its two tokens and the lexer behind them. All that a parser ever does
to its cursor is to move it on by one token. `Cursor.Reads` relates two cursors by the tokens that
become the current one on the way; what a routine of the parser does to its state is said in its
terms: it moves the cursor (`Parser.moved`), and it records.

The skipping routines are the first of them: each is known by the tokens that it reads
(`consumeNewlines_eq_ok`, `skipNewlines_eq_ok`, `fail_eq_ok`), and the tokens ahead determine where
it stops (`consumeNewlines_of_reads`, `skipNewlines_of_reads`).
-/
namespace SLFront

/-- Where a parser stands in the tokens. -/
structure Cursor where
  lexer : Lexer
  current : Token
  next : Token
deriving DecidableEq, Repr

namespace Cursor
variable {c d e : Cursor} {ts us vs : List Token}

/-- The cursor one token further on, if no forbidden word comes. -/
def step? (c : Cursor) : Option Cursor :=
  match c.lexer.next with
  | .ok t l => some ⟨l, c.next, t⟩
  | .error _ _ => none

theorem current_of_step (h : c.step? = some d) : d.current = c.next := by
  unfold step? at h
  split at h
  · cases h; rfl
  · cases h

/-- From the one cursor to the other, `ts` become the current token one after the other. -/
inductive Reads : Cursor → List Token → Cursor → Prop
  | refl (c : Cursor) : Reads c [] c
  | step {c d e : Cursor} {ts : List Token} (h : c.step? = some d) (rest : Reads d ts e) :
    Reads c (c.next :: ts) e

theorem Reads.single (h : c.step? = some d) : c.Reads [c.next] d := .step h (.refl d)

theorem Reads.eq_of_nil (h : c.Reads [] d) : c = d := by
  cases h
  rfl

theorem Reads.append (h : c.Reads us d) (h' : d.Reads vs e) : c.Reads (us ++ vs) e := by
  induction h with
  | refl c => exact h'
  | step hs _ ih => exact .step hs (ih h')

theorem Reads.split (h : c.Reads (us ++ vs) e) : ∃ d, c.Reads us d ∧ d.Reads vs e := by
  induction us generalizing c with
  | nil => exact ⟨c, .refl c, h⟩
  | cons u us ih =>
    cases h with
    | step hs rest =>
      obtain ⟨d, hd, he⟩ := ih rest
      exact ⟨d, .step hs hd, he⟩

/-- The first token that is read is the next one. -/
theorem Reads.cons {t : Token} (h : c.Reads (t :: ts) e) :
    c.next = t ∧ ∃ d, c.step? = some d ∧ d.current = t ∧ d.Reads ts e := by
  cases h with
  | step hs rest => exact ⟨rfl, _, hs, current_of_step hs, rest⟩

/-- The current token is the one that was read last. -/
theorem Reads.current_eq (h : c.Reads ts d) :
    d.current = (c.current :: ts).getLast (List.cons_ne_nil _ _) := by
  induction h with
  | refl c => rfl
  | step hs _ ih => rw [ih, current_of_step hs, List.getLast_cons (List.cons_ne_nil _ _)]

/-- The current token and those that are read after it, without the last one. -/
theorem Reads.dropLast_append (h : c.Reads ts d) :
    (c.current :: ts).dropLast ++ [d.current] = c.current :: ts := by
  rw [h.current_eq, List.dropLast_concat_getLast]

end Cursor

namespace Parser
variable {s t u : Parser} {d : Cursor} {ts us : List Token}

/-- Where the parser stands. -/
def cursor (s : Parser) : Cursor := ⟨s.lexer, s.current, s.next⟩

/-- The parser at another place, with the same records. -/
def moved (s : Parser) (c : Cursor) : Parser :=
  { s with lexer := c.lexer, current := c.current, next := c.next }

@[simp] theorem current_cursor (s : Parser) : s.cursor.current = s.current := rfl
@[simp] theorem next_cursor (s : Parser) : s.cursor.next = s.next := rfl
@[simp] theorem cursor_moved (s : Parser) (c : Cursor) : (s.moved c).cursor = c := rfl
@[simp] theorem current_moved (s : Parser) (c : Cursor) : (s.moved c).current = c.current := rfl
@[simp] theorem next_moved (s : Parser) (c : Cursor) : (s.moved c).next = c.next := rfl
@[simp] theorem statements_moved (s : Parser) (c : Cursor) :
    (s.moved c).statements = s.statements := rfl
@[simp] theorem errors_moved (s : Parser) (c : Cursor) : (s.moved c).errors = s.errors := rfl
@[simp] theorem moved_moved (s : Parser) (c d : Cursor) : (s.moved c).moved d = s.moved d := rfl

/-- Moving on moves the cursor by one step and does nothing else. -/
theorem advance_eq_ok_iff :
    s.advance = .ok () t ↔ ∃ d, s.cursor.step? = some d ∧ t = s.moved d := by
  unfold advance Cursor.step?
  show _ ↔ ∃ d, (match s.lexer.next with
    | .ok t l => some (⟨l, s.next, t⟩ : Cursor)
    | .error _ _ => none) = some d ∧ _
  cases s.lexer.next with
  | ok x l =>
    constructor
    · intro h
      cases h
      exact ⟨_, rfl, rfl⟩
    · rintro ⟨d, hd, rfl⟩
      cases hd
      rfl
  | error e l => simp

/-- Sequencing goes on where the first computation ends. -/
theorem bind_of_ok {α β : Type} {m : Parse α} {f : α → Parse β} {a : α} (h : m s = .ok a t) :
    (m >>= f) s = f a t := by
  show EStateM.bind m f s = _
  rw [EStateM.bind, h]

theorem bind_of_error {α β : Type} {m : Parse α} {f : α → Parse β} {e : LexicalError}
    (h : m s = .error e t) : (m >>= f) s = .error e t := by
  show EStateM.bind m f s = _
  rw [EStateM.bind, h]

theorem bind_eq_ok_iff {α β : Type} {m : Parse α} {f : α → Parse β} {b : β} :
    (m >>= f) s = .ok b u ↔ ∃ a t, m s = .ok a t ∧ f a t = .ok b u := by
  cases h : m s with
  | ok a t => simp [bind_of_ok h]
  | error e t => simp [bind_of_error h]

theorem bind_eq_error_iff {α β : Type} {m : Parse α} {f : α → Parse β} {e : LexicalError} :
    (m >>= f) s = .error e u ↔ m s = .error e u ∨ ∃ a t, m s = .ok a t ∧ f a t = .error e u := by
  cases h : m s with
  | ok a t => simp [bind_of_ok h]
  | error e t => simp [bind_of_error h]

theorem exists_eq_ok_of_run' {α : Type} {m : Parse α} {a : α} (h : m.run' s = some a) :
    ∃ t, m s = .ok a t := by
  unfold EStateM.run' EStateM.run at h
  cases hm : m s with
  | ok b t =>
    rw [hm] at h
    cases h
    exact ⟨t, rfl⟩
  | error e t =>
    rw [hm] at h
    cases h

theorem advance_of_step (h : s.cursor.step? = some d) : s.advance = .ok () (s.moved d) :=
  advance_eq_ok_iff.2 ⟨d, h, rfl⟩

/-- From the one state to the other the parser reads `ts` and records the errors `es`. It records
no statements; its notices are left open. -/
structure Passage (s : Parser) (ts : List Token) (es : List SyntaxError) (t : Parser) : Prop where
  reads : s.cursor.Reads ts t.cursor
  statements : t.statements = s.statements
  errors : t.errors = s.errors ++ es

namespace Passage
variable {es fs : List SyntaxError}

theorem refl (s : Parser) : s.Passage [] [] s := ⟨.refl _, rfl, (List.append_nil _).symm⟩

theorem of_moved (h : s.cursor.Reads ts d) : s.Passage ts [] (s.moved d) :=
  ⟨h, rfl, (List.append_nil _).symm⟩

theorem of_advance (h : s.advance = .ok () t) : s.Passage [s.next] [] t := by
  obtain ⟨d, hd, rfl⟩ := advance_eq_ok_iff.1 h
  exact of_moved (.single hd)

theorem of_notify {n : Notice} (h : notify n s = .ok () t) : s.Passage [] [] t := by
  cases h
  exact ⟨.refl _, rfl, (List.append_nil _).symm⟩

theorem of_report {kind : SyntaxError.Kind} {x : Token} (h : report kind x s = .ok () t) :
    s.Passage [] [⟨kind, x⟩] t := by
  cases h
  exact ⟨.refl _, rfl, rfl⟩

theorem trans (h : s.Passage ts es t) (h' : t.Passage us fs u) :
    s.Passage (ts ++ us) (es ++ fs) u where
  reads := h.reads.append h'.reads
  statements := h'.statements.trans h.statements
  errors := by rw [h'.errors, h.errors, List.append_assoc]

theorem current_eq (h : s.Passage ts es t) :
    t.current = (s.current :: ts).getLast (List.cons_ne_nil _ _) := h.reads.current_eq

theorem current_mem (h : s.Passage ts es t) : t.current ∈ s.current :: ts := by
  rw [h.current_eq]
  exact List.getLast_mem _

theorem dropLast_append (h : s.Passage ts es t) :
    (s.current :: ts).dropLast ++ [t.current] = s.current :: ts := h.reads.dropLast_append

/-- What is read in two passages meets in the token that is current between them. -/
theorem cons_append (h : s.Passage ts es t) :
    s.current :: (ts ++ us) = (s.current :: ts).dropLast ++ t.current :: us := by
  calc
    s.current :: (ts ++ us) = ((s.current :: ts).dropLast ++ [t.current]) ++ us := by
      rw [h.dropLast_append, List.cons_append]
    _ = (s.current :: ts).dropLast ++ t.current :: us := List.append_assoc ..

theorem next_eq (h : s.Passage [] es t) : t.next = s.next :=
  congrArg Cursor.next h.reads.eq_of_nil.symm

end Passage

theorem current_of_advance (h : s.advance = .ok () t) : t.current = s.next :=
  (Passage.of_advance h).current_eq

/-! ## Skipping -/

/-- Moving on while the next token satisfies a test reads the tokens that satisfy it. -/
theorem advanceWhile_next_eq_ok {f : Token.Kind → Token.Kind → Bool} (test : Token.Kind → Bool)
    {stops : f .endOfInput .endOfInput = false} (hf : ∀ c n, f c n = test n)
    (h : advanceWhile f stops s = .ok () t) :
    ∃ ts d, s.cursor.Reads ts d ∧ t = s.moved d ∧ (∀ x ∈ ts, test x.kind) ∧
      test d.next.kind = false := by
  fun_induction advanceWhile f stops s with
  | case1 s ht _ s' hs _ ih =>
    rw [hf] at ht
    obtain ⟨c, hc, rfl⟩ := advance_eq_ok_iff.1 hs
    obtain ⟨ts, d, hd, rfl, hts, hstop⟩ := ih h
    exact ⟨s.next :: ts, d, .step hc hd, rfl, List.forall_mem_cons.2 ⟨ht, hts⟩, hstop⟩
  | case2 => cases h
  | case3 s ht =>
    rw [hf] at ht
    cases h
    exact ⟨[], t.cursor, .refl _, rfl, by simp, by simpa using ht⟩

theorem advanceWhile_next_of_reads {f : Token.Kind → Token.Kind → Bool}
    (test : Token.Kind → Bool) {stops : f .endOfInput .endOfInput = false}
    (hf : ∀ c n, f c n = test n) (h : s.cursor.Reads ts d) (hts : ∀ x ∈ ts, test x.kind)
    (hd : test d.next.kind = false) : advanceWhile f stops s = .ok () (s.moved d) := by
  generalize hc : s.cursor = c at h
  induction h generalizing s with
  | refl c =>
    subst hc
    have hstop : ¬ f s.current.kind s.next.kind := by simpa [hf] using hd
    rw [advanceWhile_eq, if_neg hstop]
    rfl
  | step hs _ ih =>
    subst hc
    obtain ⟨hn, hts⟩ := List.forall_mem_cons.1 hts
    have hgo : f s.current.kind s.next.kind := by simpa [hf] using hn
    rw [advanceWhile_eq, if_pos hgo, bind_of_ok (advance_of_step hs)]
    exact ih hts hd rfl

/-- Consuming line breaks reads line breaks up to a token that is none. -/
theorem consumeNewlines_eq_ok (h : consumeNewlines s = .ok () t) :
    ∃ ts, s.Passage ts [] t ∧ (∀ x ∈ ts, x.kind = .newline) ∧ t.next.kind ≠ .newline := by
  obtain ⟨ts, d, hd, rfl, hts, hstop⟩ :=
    advanceWhile_next_eq_ok (· = .newline) (fun _ _ => rfl) h
  exact ⟨ts, .of_moved hd, by simpa using hts, by simpa using hstop⟩

theorem consumeNewlines_of_reads (h : s.cursor.Reads ts d) (hts : ∀ x ∈ ts, x.kind = .newline)
    (hd : d.next.kind ≠ .newline) : consumeNewlines s = .ok () (s.moved d) :=
  advanceWhile_next_of_reads (· = .newline) (fun _ _ => rfl) h (by simpa using hts)
    (by simpa using hd)

/-- A failure records its error and reads up to a token at which recovery stops. -/
theorem fail_eq_ok {kind : SyntaxError.Kind} {x : Token} (h : fail kind x s = .ok () t) :
    ∃ ts, s.Passage ts [⟨kind, x⟩] t ∧ (∀ y ∈ ts, y.kind.isBoundary = false) ∧
      t.next.kind.isBoundary := by
  obtain ⟨ts, d, hd, rfl, hts, hstop⟩ :=
    advanceWhile_next_eq_ok (!·.isBoundary) (fun _ _ => rfl) h
  exact ⟨ts, ⟨hd, rfl, rfl⟩, by simpa using hts, by simpa using hstop⟩

/-- Moving on while the current token satisfies a test leaves the first one that does not. -/
theorem advanceWhile_current_eq_ok {f : Token.Kind → Token.Kind → Bool}
    (test : Token.Kind → Bool) {stops : f .endOfInput .endOfInput = false}
    (hf : ∀ c n, f c n = test c) (h : advanceWhile f stops s = .ok () t) :
    ∃ ts skipped, s.Passage ts [] t ∧ s.current :: ts = skipped ++ [t.current] ∧
      (∀ x ∈ skipped, test x.kind) ∧ test t.current.kind = false := by
  fun_induction advanceWhile f stops s with
  | case1 s ht _ s' hs _ ih =>
    rw [hf] at ht
    have hpass := Passage.of_advance hs
    have hcurrent : s'.current = s.next := hpass.current_eq
    obtain ⟨ts, skipped, hts, heq, hskipped, hstop⟩ := ih h
    refine ⟨_, s.current :: skipped, hpass.trans hts, ?_, ?_, hstop⟩
    · simpa [← hcurrent] using heq
    · exact List.forall_mem_cons.2 ⟨ht, hskipped⟩
  | case2 => cases h
  | case3 s ht =>
    rw [hf] at ht
    cases h
    exact ⟨[], [], .refl t, rfl, by simp, by simpa using ht⟩

/-- Skipping line breaks leaves the first token that is none as the current one. -/
theorem skipNewlines_eq_ok (h : skipNewlines s = .ok () t) :
    ∃ ts breaks, s.Passage ts [] t ∧ s.current :: ts = breaks ++ [t.current] ∧
      (∀ x ∈ breaks, x.kind = .newline) ∧ t.current.kind ≠ .newline := by
  obtain ⟨ts, breaks, hts, heq, hbreaks, hstop⟩ :=
    advanceWhile_current_eq_ok (· = .newline) (fun _ _ => rfl) h
  exact ⟨ts, breaks, hts, heq, by simpa using hbreaks, by simpa using hstop⟩

/-- Moving on and then skipping line breaks reads the line breaks and the token behind them. -/
theorem passage_of_skip (h₁ : s.advance = .ok () t) (h₂ : skipNewlines t = .ok () u) :
    ∃ breaks, s.Passage (breaks ++ [u.current]) [] u ∧ (∀ x ∈ breaks, x.kind = .newline) ∧
      u.current.kind ≠ .newline := by
  obtain ⟨ts, breaks, hts, heq, hbreaks, hstop⟩ := skipNewlines_eq_ok h₂
  refine ⟨breaks, ?_, hbreaks, hstop⟩
  rw [← heq, current_of_advance h₁]
  exact (Passage.of_advance h₁).trans hts

theorem skipNewlines_eq (s : Parser) :
    skipNewlines s =
      if s.current.kind = .newline then (do advance; skipNewlines : Parse Unit) s
      else .ok () s := by
  refine (advanceWhile_eq _ _ s).trans ?_
  by_cases hc : s.current.kind = .newline
  · rw [if_pos hc, if_pos (decide_eq_true hc)]
    rfl
  · rw [if_neg hc, if_neg (by simpa using hc)]

theorem skipNewlines_of_reads {breaks : List Token} {y : Token} {e : Cursor}
    (h : s.cursor.Reads ts e) (hts : s.current :: ts = breaks ++ y :: us)
    (hbreaks : ∀ x ∈ breaks, x.kind = .newline) (hy : y.kind ≠ .newline) :
    ∃ d, skipNewlines s = .ok () (s.moved d) ∧ d.current = y ∧ d.Reads us e := by
  induction breaks generalizing s ts with
  | nil =>
    obtain ⟨rfl, rfl⟩ := List.cons.inj hts
    refine ⟨s.cursor, ?_, rfl, h⟩
    rw [skipNewlines_eq, if_neg hy]
    rfl
  | cons b breaks ih =>
    obtain ⟨rfl, rfl⟩ := List.cons.inj hts
    obtain ⟨hb, hbreaks⟩ := List.forall_mem_cons.1 hbreaks
    obtain ⟨x, xs, hx⟩ : ∃ x xs, breaks ++ y :: us = x :: xs := by cases breaks <;> simp
    have hcons : s.cursor.Reads (x :: xs) e := hx ▸ h
    obtain ⟨-, c, hc, hcurrent, hrest⟩ := hcons.cons
    obtain ⟨d, hd, hdy, hdus⟩ := ih (s := s.moved c) hrest (by simp [hcurrent, hx]) hbreaks
    refine ⟨d, ?_, hdy, hdus⟩
    rw [skipNewlines_eq, if_pos hb, bind_of_ok (advance_of_step hc)]
    exact hd

/-- Moving on and then skipping line breaks reaches the first token ahead that is none. -/
theorem skip_of_reads {breaks : List Token} {y : Token} {e : Cursor}
    (h : s.cursor.Reads (breaks ++ y :: us) e) (hbreaks : ∀ x ∈ breaks, x.kind = .newline)
    (hy : y.kind ≠ .newline) :
    ∃ c d, s.advance = .ok () (s.moved c) ∧ skipNewlines (s.moved c) = .ok () (s.moved d) ∧
      d.current = y ∧ d.Reads us e := by
  obtain ⟨x, xs, hx⟩ : ∃ x xs, breaks ++ y :: us = x :: xs := by cases breaks <;> simp
  rw [hx] at h
  obtain ⟨-, c, hc, hcurrent, hrest⟩ := h.cons
  obtain ⟨d, hd, hdy, hdus⟩ :=
    skipNewlines_of_reads (s := s.moved c) hrest (by simpa [hcurrent] using hx.symm) hbreaks hy
  exact ⟨c, d, advance_of_step hc, hd, hdy, hdus⟩

end Parser
end SLFront
