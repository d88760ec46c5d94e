import SLFront.Session
import SLFront.Proofs.Walk
import SLFront.Proofs.Places
import SLFront.Proofs.ProgramReading

/-!
# Progress

A parser that is interrupted can be asked to go on, and a lexer command may have taken tokens from
it in between. Whatever commands have been carried out, the end of input comes last: a parser at
whose cursor it stands has nothing left behind it (`Cursor.EndLast`, `Session.endLast_after`). So a
program that is not interrupted has come to the end of the text.

Scanning passes one lexeme after the other, and is interrupted by the forbidden words, one at a time
(`HasForbidden`). So a program that is interrupted leaves one forbidden word less in front of it,
and when it is run again and again it comes to its end (`Session.terminates`).
-/
namespace SLFront

/-! ## Forbidden words ahead -/

/-- The lexeme of the piece is one of the forbidden words, in any letter case. -/
def Piece.isForbidden (p : Piece) : Bool := Occurrence.isForbidden ⟨p.kind, p.chars, 0⟩

/-- Among the lexemes of the text there are `n` forbidden words. -/
def HasForbidden (cs : List Char) (n : Nat) : Prop :=
  ∃ ps lastGap, IsDecomposition cs ps lastGap ∧ ps.countP Piece.isForbidden = n

section
variable {cs : List Char} {m n : Nat}

theorem exists_hasForbidden (cs : List Char) : ∃ n, HasForbidden cs n := by
  obtain ⟨ps, lastGap, h⟩ := exists_decomposition cs
  exact ⟨_, ps, lastGap, h, rfl⟩

theorem HasForbidden.unique (h : HasForbidden cs m) (h' : HasForbidden cs n) : m = n := by
  obtain ⟨ps, lastGap, hps, rfl⟩ := h
  obtain ⟨ps', lastGap', hps', rfl⟩ := h'
  rw [(hps.unique hps').1]

theorem hasForbidden_nil : HasForbidden [] 0 :=
  ⟨[], [], .last (.blanks (List.forall_mem_nil _)), rfl⟩

end

namespace Scanner
variable {s s' : Scanner} {t : Token} {e : LexicalError} {n : Nat}

theorem rest_of_endOfInput (h : s.scan = .ok t s') (ht : t.kind = .endOfInput) : s'.rest = [] := by
  obtain ⟨hrest, hscan⟩ | ⟨c, cs, hrest, hscan⟩ := s.scan_cases
  · cases hscan.symm.trans h
    exact hrest
  · cases htoken : tokenOf (.first c cs) s.skipGap.location with
    | error e =>
      rw [htoken] at hscan
      cases hscan.symm.trans h
    | ok u =>
      rw [htoken] at hscan
      cases hscan.symm.trans h
      exact absurd ht (tokenOf_ne_endOfInput (Lexeme.kind_ne_endOfInput c cs) htoken)

/-- A scan that gives a token has passed no forbidden word, and one that is interrupted has passed
one. -/
theorem hasForbidden_scan (hn : HasForbidden s.rest n) :
    match s.scan with
    | .ok _ s' => HasForbidden s'.rest n
    | .error _ s' => ∃ m, n = m + 1 ∧ HasForbidden s'.rest m := by
  obtain ⟨ps, lastGap, hps, rfl⟩ := hn
  generalize hcs : s.rest = cs at hps
  cases hps with
  | last hg =>
    obtain ⟨s', place, -, hscan⟩ := scan_of_isGap hg hcs
    rw [hscan]
    dsimp only
    rw [rest_of_endOfInput hscan rfl]
    exact hasForbidden_nil
  | @piece g w rest lastGap k ps hg hstart hw hrest =>
    obtain ⟨s', place, hs', -, -, -, -, hfree, hforbidden⟩ := scan_of_isLexeme hg hstart hw hcs
    have hps : HasForbidden s'.rest (ps.countP Piece.isForbidden) := ⟨ps, lastGap, hs' ▸ hrest, rfl⟩
    cases hp : Piece.isForbidden ⟨g, k, w⟩ with
    | true =>
      obtain ⟨q, hk, hq⟩ := (hw.isForbidden_iff 0).1 hp
      rw [hforbidden q hk hq]
      exact ⟨_, List.countP_cons_of_pos hp, hps⟩
    | false =>
      have hnone : ∀ q : Keyword, k = .keyword q → q.isForbidden = false := by
        intro q hk
        by_contra hq
        have := (hw.isForbidden_iff 0).2 ⟨q, hk, by simpa using hq⟩
        exact absurd (hp.symm.trans this) (by decide)
      rw [hfree hnone]
      dsimp only
      rwa [List.countP_cons_of_neg (by simp [hp])]

end Scanner

/-! ## The end of input comes last -/

namespace Lexer
variable {l l' : Lexer} {t : Token} {e : LexicalError} {n : Nat}

/-- The lexer has scanned the whole text, and keeps nothing but the end of input. -/
structure AtEnd (l : Lexer) : Prop where
  rest : l.scanner.rest = []
  peeked : ∀ t ∈ l.peeked, t.kind = .endOfInput

/-- If the lexer keeps the end of input, it has scanned the whole text. -/
def EndLast (l : Lexer) : Prop := ∀ t ∈ l.peeked, t.kind = .endOfInput → l.scanner.rest = []

theorem endLast_of_not_peeked (h : l.peeked = none) : l.EndLast := by
  intro t ht
  rw [h] at ht
  cases ht

/-- Behind the end of input there is nothing but the end of input. -/
theorem AtEnd.next (h : l.AtEnd) : ∃ t l', l.next = .ok t l' ∧ t.kind = .endOfInput ∧ l'.AtEnd := by
  obtain ⟨s, peeked⟩ := l
  cases peeked with
  | some t => exact ⟨t, _, rfl, h.peeked t rfl, h.rest, by simp⟩
  | none =>
    obtain ⟨s', place, -, hscan⟩ :=
      Scanner.scan_of_isGap (s := s) (.blanks (List.forall_mem_nil _)) h.rest
    have hrest := Scanner.rest_of_endOfInput hscan rfl
    exact ⟨_, _, next_of_scan rfl hscan, rfl, hrest, by simp⟩

theorem EndLast.next (h : l.EndLast) (hn : l.next = .ok t l') :
    l'.EndLast ∧ (t.kind = .endOfInput → l'.AtEnd) := by
  have hpeeked := peeked_of_next hn
  refine ⟨endLast_of_not_peeked hpeeked, fun ht => ⟨?_, by simp [hpeeked]⟩⟩
  obtain ⟨s, peeked⟩ := l
  cases peeked with
  | some u =>
    cases hn
    exact h _ rfl ht
  | none => exact Scanner.rest_of_endOfInput (scan_of_next rfl hn) ht

theorem peeked_of_next_error (h : l.next = .error e l') : l'.peeked = none := by
  unfold next at h
  split at h
  · cases h
  · rename_i hp
    split at h <;> cases h
    exact hp

theorem hasForbidden_next (hn : HasForbidden l.scanner.rest n) :
    match l.next with
    | .ok _ l' => HasForbidden l'.scanner.rest n
    | .error _ l' => ∃ m, n = m + 1 ∧ HasForbidden l'.scanner.rest m := by
  obtain ⟨s, peeked⟩ := l
  cases peeked with
  | some t => exact hn
  | none =>
    have hscan := Scanner.hasForbidden_scan hn
    unfold next
    dsimp only at hscan ⊢
    cases h : s.scan with
    | ok t s' =>
      rw [h] at hscan
      exact hscan
    | error e s' =>
      rw [h] at hscan
      exact hscan

/-- The command leaves the end of input last, and a lexer at the end of input there. -/
def KeepsEnd {α : Type} (c : EStateM LexicalError Lexer α) : Prop :=
  ∀ l : Lexer, l.EndLast → match c l with
    | .ok _ l' | .error _ l' => l'.EndLast ∧ (l.AtEnd → l'.AtEnd)

theorem keepsEnd_next : KeepsEnd next := by
  intro l hl
  cases h : l.next with
  | ok t l' =>
    refine ⟨(hl.next h).1, fun hend => ?_⟩
    obtain ⟨u, l'', hnext, -, hend'⟩ := hend.next
    cases h.symm.trans hnext
    exact hend'
  | error e l' =>
    refine ⟨endLast_of_not_peeked (peeked_of_next_error h), fun hend => ?_⟩
    obtain ⟨u, l'', hnext, -⟩ := hend.next
    cases h.symm.trans hnext

theorem keepsEnd_drain : KeepsEnd drain := by
  intro l hl
  have hnext := keepsEnd_next l hl
  fun_induction drain l with
  | case1 l e l' h | case2 l t l' h _ =>
    rw [h] at hnext
    exact hnext
  | case3 l t l' h _ _ ts l'' hts ih =>
    rw [h] at hnext
    have hrest := ih hnext.1 (keepsEnd_next l' hnext.1)
    rw [hts] at hrest
    exact ⟨hrest.1, fun hend => hrest.2 (hnext.2 hend)⟩
  | case4 l t l' h _ _ e l'' he ih =>
    rw [h] at hnext
    have hrest := ih hnext.1 (keepsEnd_next l' hnext.1)
    rw [he] at hrest
    exact ⟨hrest.1, fun hend => hrest.2 (hnext.2 hend)⟩

theorem keepsEnd_peek : KeepsEnd peek := by
  rintro ⟨s, _ | t⟩ hl
  · unfold peek
    dsimp only
    cases h : s.scan with
    | ok t s' =>
      have hrest : t.kind = .endOfInput → s'.rest = [] := Scanner.rest_of_endOfInput h
      refine ⟨fun u hu => Option.some.inj hu ▸ hrest, fun hend => ?_⟩
      obtain ⟨u, l', hnext, hu, -⟩ := hend.next
      cases (next_of_scan rfl h).symm.trans hnext
      exact ⟨hrest hu, fun x hx => Option.some.inj hx ▸ hu⟩
    | error e s' =>
      refine ⟨endLast_of_not_peeked rfl, fun hend => ?_⟩
      obtain ⟨u, l', hnext, -⟩ := hend.next
      cases (next_of_scan_error rfl h).symm.trans hnext
  · exact ⟨hl, id⟩

end Lexer

/-! ## Cursors -/

namespace Cursor
variable {c d : Cursor} {us : List Token} {n : Nat}

/-- Nothing but the end of input lies behind the end of input. -/
structure EndLast (c : Cursor) : Prop where
  lexer : c.lexer.EndLast
  next : c.next.kind = .endOfInput → c.lexer.AtEnd
  current : c.current.kind = .endOfInput → c.next.kind = .endOfInput

theorem EndLast.step (h : c.EndLast) (hs : c.step? = some d) : d.EndLast := by
  unfold step? at hs
  split at hs
  · rename_i t l hl
    cases hs
    obtain ⟨hlexer, hend⟩ := h.lexer.next hl
    refine ⟨hlexer, hend, fun hc => ?_⟩
    obtain ⟨u, l', hnext, hu, -⟩ := (h.next hc).next
    cases hl.symm.trans hnext
    exact hu
  · cases hs

theorem EndLast.reads (h : c.EndLast) (hd : c.Reads us d) : d.EndLast := by
  induction hd with
  | refl => exact h
  | step hs _ ih => exact ih (h.step hs)

/-- No forbidden word is passed while tokens are read. -/
theorem Reads.hasForbidden (h : c.Reads us d) (hn : HasForbidden c.lexer.scanner.rest n) :
    HasForbidden d.lexer.scanner.rest n := by
  induction h with
  | refl => exact hn
  | step hs _ ih =>
    refine ih ?_
    unfold step? at hs
    split at hs
    · rename_i l hl
      cases hs
      have hnext := Lexer.hasForbidden_next hn
      rw [hl] at hnext
      exact hnext
    · cases hs

end Cursor

namespace Parser
variable {p q : Parser} {e : LexicalError} {n : Nat}

/-- Where moving on is interrupted, the end of input has not come. -/
theorem endLast_of_advance_error (h : p.cursor.EndLast) (he : p.advance = .error e q) :
    q.cursor.EndLast := by
  unfold advance at he
  split at he
  · cases he
  · rename_i l hl
    cases he
    have hlexer : l.EndLast := Lexer.endLast_of_not_peeked (Lexer.peeked_of_next_error hl)
    refine ⟨hlexer, fun hend => ?_, id⟩
    obtain ⟨u, l', hnext, -⟩ := (h.next hend).next
    cases hl.symm.trans hnext

/-- Moving on is interrupted by one forbidden word. -/
theorem hasForbidden_of_advance_error (he : p.advance = .error e q)
    (hn : HasForbidden p.lexer.scanner.rest n) :
    ∃ m, n = m + 1 ∧ HasForbidden q.lexer.scanner.rest m := by
  unfold advance at he
  split at he
  · cases he
  · rename_i l hl
    cases he
    have hnext := Lexer.hasForbidden_next hn
    rw [hl] at hnext
    exact hnext

theorem endLast_of_start {l l' : Lexer} (hl : l.EndLast) (h : Parser.start l = .ok p l') :
    p.cursor.EndLast := by
  obtain ⟨t, l₁, u, h₁, h₂, rfl⟩ := start_eq_ok h
  obtain ⟨hl₁, ht⟩ := hl.next h₁
  obtain ⟨hl₂, hu⟩ := hl₁.next h₂
  refine ⟨hl₂, hu, fun hc => ?_⟩
  obtain ⟨v, l₃, hnext, hv, -⟩ := (ht hc).next
  cases h₂.symm.trans hnext
  exact hv

theorem peeked_of_start_error {l l' : Lexer} (h : Parser.start l = .error e l') :
    l'.peeked = none := by
  rcases start_eq_error_iff.1 h with h₁ | ⟨t, l₁, -, h₂⟩
  · exact Lexer.peeked_of_next_error h₁
  · exact Lexer.peeked_of_next_error h₂

/-- A routine leaves the end of input last. -/
theorem Walks.endLast {α : Type} {r : EStateM.Result LexicalError Parser α} (h : Walks p r)
    (hp : p.cursor.EndLast) : (after r).cursor.EndLast := by
  cases r with
  | ok a q =>
    obtain ⟨us, hus⟩ := h
    exact hp.reads hus
  | error e q =>
    obtain ⟨us, u, hus, he⟩ := h
    exact endLast_of_advance_error (hp.reads hus) he

/-- A routine that is not interrupted passes no forbidden word, and one that is passes one. -/
theorem Walks.hasForbidden {α : Type} {r : EStateM.Result LexicalError Parser α}
    (hn : HasForbidden p.lexer.scanner.rest n) : Walks p r → match r with
    | .ok _ q => HasForbidden q.lexer.scanner.rest n
    | .error _ q => ∃ m, n = m + 1 ∧ HasForbidden q.lexer.scanner.rest m := by
  intro h
  cases r with
  | ok a q =>
    obtain ⟨us, hus⟩ := h
    exact hus.hasForbidden hn
  | error e q =>
    obtain ⟨us, u, hus, he⟩ := h
    exact hasForbidden_of_advance_error he (hus.hasForbidden hn)

/-- Both tokens of the parser are the end of input, and its lexer has scanned the whole text. -/
structure AtEnd (p : Parser) : Prop where
  current : p.current.kind = .endOfInput
  next : p.next.kind = .endOfInput
  rest : p.lexer.scanner.rest = []

theorem current_of_program {b : Bool} (h : p.program = .ok b q) :
    q.current.kind = .endOfInput := by
  obtain ⟨_, t, ht, h⟩ := bind_eq_ok_iff.1 h
  obtain ⟨bs, hbs⟩ := yieldsBlocks_of_eq_ok ht
  obtain ⟨-, -, -, -, -, hc, -⟩ := hbs.reads
  cases h
  exact hc

/-- A program comes to the end of the text, or one of the forbidden words interrupts it. -/
theorem program_progress (hp : p.cursor.EndLast) (hn : HasForbidden p.lexer.scanner.rest n) :
    match p.program with
    | .ok _ q => q.AtEnd ∧ n = 0
    | .error _ q => ∃ m, n = m + 1 ∧ HasForbidden q.lexer.scanner.rest m := by
  have hwalks : Walks p p.program := walks_program p
  have hend := hwalks.endLast hp
  have hrest := Walks.hasForbidden hn hwalks
  cases h : p.program with
  | ok b q =>
    rw [h] at hend hrest
    have hc := current_of_program h
    have hempty : q.lexer.scanner.rest = [] := (hend.next (hend.current hc)).rest
    refine ⟨⟨hc, hend.current hc, hempty⟩, ?_⟩
    have hzero : HasForbidden [] n := hempty ▸ hrest
    exact hzero.unique hasForbidden_nil
  | error e q =>
    rw [h] at hrest
    exact hrest

end Parser

/-! ## Sessions -/

namespace Session

/-- Nothing but the end of input lies behind the end of input. -/
def EndLast : Session → Prop
  | reading l => l.EndLast
  | parsing p => p.cursor.EndLast

variable {s : Session}

theorem EndLast.lexer (h : s.EndLast) : s.lexer.EndLast := by
  cases s with
  | reading l => exact h
  | parsing p => exact Cursor.EndLast.lexer h

theorem EndLast.withLexer {l : Lexer} (h : s.EndLast) (hl : l.EndLast)
    (hend : s.lexer.AtEnd → l.AtEnd) : (s.withLexer l).EndLast := by
  cases s with
  | reading _ => exact hl
  | parsing p =>
    obtain ⟨-, hnext, hcurrent⟩ : p.cursor.EndLast := h
    exact ⟨hl, fun hn => hend (hnext hn), hcurrent⟩

theorem EndLast.onLexer {α : Type} {c : EStateM LexicalError Lexer α} (hc : Lexer.KeepsEnd c)
    (answer : α → Answer) (h : s.EndLast) : (s.onLexer c answer).2.EndLast := by
  have hkeeps := hc s.lexer h.lexer
  unfold Session.onLexer
  cases hr : c s.lexer <;> rw [hr] at hkeeps <;> exact h.withLexer hkeeps.1 hkeeps.2

theorem EndLast.onParser {α : Type} {c : Parse α} (hc : ∀ p, Parser.Walks p (c p))
    (answer : α → Answer) (h : s.EndLast) : (s.onParser c answer).2.EndLast := by
  cases s with
  | reading _ => exact h
  | parsing p =>
    have hkeeps := (hc p).endLast h
    unfold Session.onParser
    dsimp only
    cases hr : c p <;> rw [hr] at hkeeps <;> exact hkeeps

theorem EndLast.openParser (h : s.EndLast) : s.openParser.2.EndLast := by
  unfold Session.openParser
  cases hstart : Parser.start s.lexer with
  | ok p l => exact Parser.endLast_of_start h.lexer hstart
  | error e l => exact Lexer.endLast_of_not_peeked (Parser.peeked_of_start_error hstart)

theorem EndLast.step (h : s.EndLast) (c : Command) : (s.step c).2.EndLast := by
  have hwalks := Parser.compositional_walks
  cases c with
  | next => exact h.onLexer Lexer.keepsEnd_next _
  | peek => exact h.onLexer Lexer.keepsEnd_peek _
  | drain => exact h.onLexer Lexer.keepsEnd_drain _
  | openParser => exact h.openParser
  | program => exact h.onParser Parser.walks_program _
  | expression x => exact h.onParser (hwalks.expression x) _
  | statement => exact h.onParser hwalks.statement _
  | advance => exact h.onParser hwalks.advance _
  | synchronize => exact h.onParser hwalks.synchronize _
  | statements | errors | discardCopies | hasErrors => exact h.onParser (fun p => hwalks.pure p p) _

/-- Whatever commands have been carried out, the end of input comes last. -/
theorem endLast_after (source filename : String) (cs : List Command) :
    ((start source filename).after cs).EndLast := by
  have hstart : (start source filename).EndLast := Lexer.endLast_of_not_peeked rfl
  revert hstart
  unfold after
  generalize start source filename = s
  intro hs
  induction cs generalizing s with
  | nil => exact hs
  | cons c cs ih => exact ih _ (hs.step c)

theorem step_program (p : Parser) :
    (parsing p).step .program = match p.program with
      | .ok b q => (.flag b, parsing q)
      | .error e q => (.interrupted e, parsing q) := by
  cases h : p.program <;> simp [step, onParser, h]

/-- As many forbidden words as lie ahead interrupt a program that is run again and again. The next
time it ends. -/
theorem run_program {p : Parser} {n : Nat} (hp : p.cursor.EndLast)
    (hn : HasForbidden p.lexer.scanner.rest n) :
    ∃ (es : List LexicalError) (b : Bool), es.length = n ∧
      ((parsing p).run (.replicate (n + 1) .program)).map Prod.fst =
        es.map Answer.interrupted ++ [.flag b] := by
  induction n using Nat.strongRecOn generalizing p with
  | _ n ih =>
    have hprogress := Parser.program_progress hp hn
    have hend := (Parser.walks_program p).endLast hp
    cases h : p.program with
    | ok b q =>
      rw [h] at hprogress
      obtain ⟨-, rfl⟩ := hprogress
      exact ⟨[], b, rfl, by simp [run, step_program, h]⟩
    | error e q =>
      rw [h] at hprogress
      rw [h, Parser.after_error] at hend
      obtain ⟨m, rfl, hforbidden⟩ := hprogress
      obtain ⟨es, b, rfl, hrun⟩ := ih _ (Nat.lt_succ_self _) hend hforbidden
      have hstep : (parsing p).step .program = (.interrupted e, parsing q) := by
        rw [step_program, h]
      refine ⟨e :: es, b, rfl, ?_⟩
      rw [List.replicate_succ, run, hstep, List.map_cons, hrun]
      rfl

/-- No call of a routine goes on for ever, and no call is missing from those that a routine is said
to make: what single steps have and sequencing keeps, a call has if those that it makes have it. In
the states that commands can lead to, a program that
is not interrupted comes to the end of the text. One that is interrupted leaves one forbidden word
less ahead of the lexer. So a program that is run again and again is interrupted once for each of
them, and ends the next time. -/
theorem terminates {source filename : String} {cs : List Command} {p : Parser}
    (h : (start source filename).after cs = parsing p) :
    (WellFounded fun c' c : Call => c.Makes c') ∧
    (∀ P : ∀ {α : Type}, Parser → EStateM.Result LexicalError Parser α → Prop,
      Parser.Compositional P → ∀ c : Call, (∀ c', c.Makes c' → c'.Satisfies P) → c.Satisfies P) ∧
    ∃ n, HasForbidden p.lexer.scanner.rest n ∧
      (match p.program with
        | .ok _ q => q.AtEnd
        | .error _ q => ∃ m, n = m + 1 ∧ HasForbidden q.lexer.scanner.rest m) ∧
      ∃ (es : List LexicalError) (b : Bool), es.length = n ∧
        ((parsing p).run (.replicate (n + 1) .program)).map Prod.fst =
          es.map Answer.interrupted ++ [.flag b] := by
  have hp : p.cursor.EndLast := by
    have hend := endLast_after source filename cs
    rw [h] at hend
    exact hend
  obtain ⟨n, hn⟩ := exists_hasForbidden p.lexer.scanner.rest
  refine ⟨Call.wellFounded_makes, fun P hP c => Call.satisfies_of_makes hP, n, hn, ?_,
    run_program hp hn⟩
  have hprogress := Parser.program_progress hp hn
  cases hprogram : p.program with
  | ok b q =>
    rw [hprogram] at hprogress
    exact hprogress.1
  | error e q =>
    rw [hprogram] at hprogress
    exact hprogress

/-- A token is taken from the parser, and then moving on is interrupted. -/
theorem terminates_half_done :
    ∃ p, (start "var a = lib 1\nlibext").after [.openParser, .next, .advance] = parsing p ∧
      p.current = p.next ∧ p.lexer.scanner.rest = " 1\nlibext".toList ∧
      ∃ n, HasForbidden p.lexer.scanner.rest n ∧
        ∃ (es : List LexicalError) (b : Bool), es.length = n ∧
          ((parsing p).run (.replicate (n + 1) .program)).map Prod.fst =
            es.map Answer.interrupted ++ [.flag b] := by
  have hrun : ((start "var a = lib 1\nlibext").after [.openParser, .next, .advance]).parser?.map
      (fun p => (decide (p.current = p.next), p.lexer.scanner.rest)) =
        some (true, " 1\nlibext".toList) := by
    decide +kernel
  cases h : (start "var a = lib 1\nlibext").after [.openParser, .next, .advance] with
  | reading l =>
    rw [h] at hrun
    cases hrun
  | parsing p =>
    rw [h] at hrun
    obtain ⟨hcurrent, hrest⟩ := Prod.ext_iff.1 (Option.some.inj hrun)
    obtain ⟨-, -, n, hn, -, hprograms⟩ := terminates h
    exact ⟨p, rfl, of_decide_eq_true hcurrent, hrest, n, hn, hprograms⟩

end Session
end SLFront
