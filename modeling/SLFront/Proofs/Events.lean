import Mathlib.Data.Stream.Init
import SLFront.Session
import SLFront.Proofs.TokenStream

/-!
# Events and who takes them

A source text is a stream of events: its tokens and its forbidden words in their order, and behind
them the end of input for ever (`Scanner.events`). A lexer has a part of the stream before it, which
starts with the token that was looked at, if there is one (`Lexer.events`). All that the commands of
a session do to the stream is to take events from its front: a command shows what it has taken in
its answer and in the tokens of its parser (`Session.Takes`), and what it has not taken stays for
the commands that follow (`Session.exists_takes`). So the events that are taken in a session, by
whatever command, are the first events of the source text, each of them once
(`Session.takesAll_of_start`).

## Main definitions

* `Event`, `Scanner.events`, `Lexer.events` — the stream.
* `Session.Takes`, `Session.TakesAll` — what a command takes, and what commands take in order.
-/
namespace SLFront

/-- What comes next in a source text: a token, or a forbidden word as the error that it is. -/
inductive Event
  | token (t : Token)
  | forbidden (e : LexicalError)
deriving DecidableEq, Repr

/-- What a command answers that takes one event. -/
def Event.answer : Event → Session.Answer
  | token t => .token t
  | forbidden e => .interrupted e

/-! ## The events of a source text -/

namespace Scanner
variable {s s' : Scanner} {t : Token} {e : LexicalError}

/-- One scan, as an event and the scanner behind it. -/
def pull (s : Scanner) : Event × Scanner :=
  match s.scan with
  | .ok t s' => (.token t, s')
  | .error e s' => (.forbidden e, s')

/-- The events from a place on. Scanning goes on behind a forbidden word. -/
def events : Scanner → Stream' Event := Stream'.corec' pull

theorem events_eq (s : Scanner) : s.events = .cons s.pull.1 s.pull.2.events :=
  Stream'.corec'_eq pull s

theorem events_of_scan (h : s.scan = .ok t s') : s.events = .cons (.token t) s'.events := by
  rw [events_eq, pull, h]

theorem events_of_scan_error (h : s.scan = .error e s') :
    s.events = .cons (.forbidden e) s'.events := by
  rw [events_eq, pull, h]

/-- Where a scan changes nothing it goes on for ever. -/
theorem events_of_fixed (h : s.scan = .ok t s) : s.events = .const (.token t) := by
  refine Stream'.ext fun n => ?_
  induction n with
  | zero => rw [events_of_scan h, Stream'.get_zero_cons, Stream'.get_const]
  | succ n ih =>
    rw [events_of_scan h, Stream'.get_succ_cons, ih, Stream'.get_const, Stream'.get_const]

/-- The events end with the end of input, and that comes for ever. -/
theorem exists_events_eq_const (s : Scanner) :
    ∃ es t, t.kind = .endOfInput ∧ s.events = es ++ₛ .const (.token t) := by
  induction hn : s.rest.length using Nat.strongRecOn generalizing s with
  | _ n ih =>
    subst hn
    cases h : s.scan with
    | error e s' =>
      obtain ⟨es, t, ht, hes⟩ := ih _ (length_rest_of_scan_eq_error h) s' rfl
      exact ⟨.forbidden e :: es, t, ht, by rw [events_of_scan_error h, hes]; rfl⟩
    | ok u s' =>
      have hrest := length_rest_of_scan_eq_ok h
      by_cases hu : u.kind = .endOfInput
      · refine ⟨[.token u], u, hu, ?_⟩
        rw [events_of_scan h, events_of_fixed (scan_of_endOfInput h hu)]
        rfl
      · rw [if_neg hu] at hrest
        obtain ⟨es, t, ht, hes⟩ := ih _ (by omega) s' rfl
        exact ⟨.token u :: es, t, ht, by rw [events_of_scan h, hes]; rfl⟩

end Scanner

/-! ## The events before a lexer -/

namespace Lexer
variable {l l' : Lexer} {t : Token} {ts : List Token} {e : LexicalError}

/-- The events that have not been taken. The token that was looked at is the first of them. -/
def events (l : Lexer) : Stream' Event := (l.peeked.map .token).toList ++ₛ l.scanner.events

theorem events_of_peeked (h : l.peeked = some t) :
    l.events = .cons (.token t) l.scanner.events := by
  unfold events
  rw [h]
  rfl

theorem events_of_not_peeked (h : l.peeked = none) : l.events = l.scanner.events := by
  unfold events
  rw [h]
  rfl

theorem events_of_next (h : l.next = .ok t l') : l.events = .cons (.token t) l'.events := by
  unfold next at h
  split at h
  · rename_i hp
    cases h
    exact events_of_peeked hp
  · rename_i hp
    split at h
    · rename_i s hs
      cases h
      rw [events_of_not_peeked hp, Scanner.events_of_scan hs,
        events_of_not_peeked (l := { l with scanner := s }) hp]
    · cases h

theorem events_of_next_error (h : l.next = .error e l') :
    l.events = .cons (.forbidden e) l'.events := by
  unfold next at h
  split at h
  · cases h
  · rename_i hp
    split at h
    · cases h
    · rename_i s hs
      cases h
      rw [events_of_not_peeked hp, Scanner.events_of_scan_error hs,
        events_of_not_peeked (l := { l with scanner := s }) hp]

/-- Looking at a token takes nothing: the token is the first event still. -/
theorem events_of_peek (h : l.peek = .ok t l') :
    l'.events = l.events ∧ l'.peeked = some t := by
  unfold peek at h
  split at h
  · rename_i hp
    cases h
    exact ⟨rfl, hp⟩
  · rename_i hp
    split at h
    · rename_i hs
      cases h
      refine ⟨?_, rfl⟩
      rw [events_of_not_peeked hp, Scanner.events_of_scan hs, events_of_peeked rfl]
    · cases h

/-- Looking at a forbidden word takes it, and keeps nothing. -/
theorem events_of_peek_error (h : l.peek = .error e l') :
    l.events = .cons (.forbidden e) l'.events ∧ l'.peeked = none := by
  unfold peek at h
  split at h
  · cases h
  · rename_i hp
    split at h
    · cases h
    · rename_i s hs
      cases h
      refine ⟨?_, hp⟩
      rw [events_of_not_peeked hp, Scanner.events_of_scan_error hs,
        events_of_not_peeked (l := { l with scanner := s }) hp]

theorem events_of_drain (h : l.drain = .ok ts l') :
    l.events = ts.map .token ++ₛ l'.events := by
  fun_induction drain l generalizing ts l' with
  | case1 => cases h
  | case2 l t l₁ hl ht =>
    cases h
    exact events_of_next hl
  | case3 l t l₁ hl ht _ us l₂ hus ih =>
    cases h
    rw [events_of_next hl, ih hus]
    rfl
  | case4 => cases h

/-- Draining that is interrupted has taken the tokens in front of the forbidden word and the
word. -/
theorem events_of_drain_error (h : l.drain = .error e l') :
    ∃ ts : List Token, l.events = (ts.map .token ++ [.forbidden e]) ++ₛ l'.events := by
  fun_induction drain l generalizing e l' with
  | case1 l e l₁ hl =>
    cases h
    exact ⟨[], events_of_next_error hl⟩
  | case2 => cases h
  | case3 => cases h
  | case4 l t l₁ hl ht _ e l₂ he ih =>
    cases h
    obtain ⟨ts, hts⟩ := ih he
    exact ⟨t :: ts, by rw [events_of_next hl, hts]; rfl⟩

end Lexer

/-- Where tokens become the current one after the other, as many are taken from the lexer, one token
ahead. -/
theorem Cursor.Reads.exists_taken {c d : Cursor} {us : List Token} (h : c.Reads us d) :
    ∃ ts : List Token, c.next :: ts = us ++ [d.next] ∧
      c.lexer.events = ts.map .token ++ₛ d.lexer.events := by
  induction h with
  | refl c => exact ⟨[], rfl, rfl⟩
  | @step c d e us hs _ ih =>
    obtain ⟨ts, hts, hevents⟩ := ih
    unfold step? at hs
    split at hs
    · rename_i t l hl
      cases hs
      refine ⟨t :: ts, by rw [List.cons_append, ← hts], ?_⟩
      rw [Lexer.events_of_next hl, hevents]
      rfl
    · cases hs

/-! ## What commands take -/

/-- The command is one for the parser. -/
def Session.Command.needsParser : Command → Bool
  | next | peek | drain | openParser => false
  | _ => true

namespace Session
variable {s s' : Session} {c : Command} {t : Token} {e : LexicalError}

/-- What a command takes, as its answer and the session after it show it. A lexer command takes the
tokens that it answers, but for `peek`, which takes none, and the forbidden word that it answers. A
parser takes two tokens when it starts. From then on it takes one for each token that becomes the
current one: the token behind its next one, which becomes the next one. -/
inductive Takes : Session → Command → List Event → Answer → Session → Prop
  | next {s s' : Session} (t : Token) : Takes s .next [.token t] (.token t) s'
  | nextForbidden {s s' : Session} (e : LexicalError) :
    Takes s .next [.forbidden e] (.interrupted e) s'
  | peek {s s' : Session} (t : Token) : Takes s .peek [] (.token t) s'
  | peekForbidden {s s' : Session} (e : LexicalError) :
    Takes s .peek [.forbidden e] (.interrupted e) s'
  | drain {s s' : Session} (ts : List Token) : Takes s .drain (ts.map .token) (.tokens ts) s'
  | drainForbidden {s s' : Session} (ts : List Token) (e : LexicalError) :
    Takes s .drain (ts.map .token ++ [.forbidden e]) (.interrupted e) s'
  | openParser {s : Session} (p : Parser) :
    Takes s .openParser [.token p.current, .token p.next] .opened (.parsing p)
  | openParserForbidden {s : Session} {l : Lexer} (ts : List Token) (hts : ts.length ≤ 1)
    (e : LexicalError) :
    Takes s .openParser (ts.map .token ++ [.forbidden e]) (.interrupted e) (.reading l)
  | noParser {l : Lexer} {c : Command} (hc : c.needsParser) :
    Takes (.reading l) c [] .noParser (.reading l)
  | parser {p q : Parser} {c : Command} {a : Answer} {us ts : List Token} (hc : c.needsParser)
    (ha : ∀ e, a ≠ .interrupted e) (hus : p.cursor.Reads us q.cursor)
    (hts : p.next :: ts = us ++ [q.next]) :
    Takes (.parsing p) c (ts.map .token) a (.parsing q)
  | parserForbidden {p q : Parser} {d : Cursor} {c : Command} {us ts : List Token}
    (hc : c.needsParser) (e : LexicalError) (hus : p.cursor.Reads us d)
    (hts : p.next :: ts = us ++ [d.next]) (hcurrent : q.current = d.next)
    (hnext : q.next = d.next) :
    Takes (.parsing p) c (ts.map .token ++ [.forbidden e]) (.interrupted e) (.parsing q)

/-- What commands take, one after the other. -/
inductive TakesAll : Session → List Command → List Event → Prop
  | nil {s : Session} : TakesAll s [] []
  | cons {s : Session} {c : Command} {cs : List Command} {es fs : List Event}
    (h : Takes s c es (s.step c).1 (s.step c).2) (rest : TakesAll (s.step c).2 cs fs) :
    TakesAll s (c :: cs) (es ++ fs)

@[simp] theorem lexer_withLexer (s : Session) (l : Lexer) : (s.withLexer l).lexer = l := by
  cases s <;> rfl

end Session

namespace Parser
variable {p q : Parser} {e : LexicalError}

/-- Moving on to a forbidden word takes the word. -/
theorem advance_eq_error (h : p.advance = .error e q) :
    p.lexer.events = .cons (.forbidden e) q.lexer.events ∧ q.current = p.next ∧
      q.next = p.next := by
  unfold advance at h
  split at h
  · cases h
  · rename_i hl
    cases h
    exact ⟨Lexer.events_of_next_error hl, rfl, rfl⟩

end Parser

namespace Session

/-- A parser command takes what its routine reads. -/
theorem exists_takes_onParser {α : Type} {m : Parse α} {answer : α → Answer} {c : Command}
    (hc : c.needsParser) (hm : ∀ p, Parser.Walks p (m p)) (ha : ∀ a e, answer a ≠ .interrupted e)
    (s : Session) :
    ∃ es, Takes s c es (s.onParser m answer).1 (s.onParser m answer).2 ∧
      s.lexer.events = es ++ₛ (s.onParser m answer).2.lexer.events := by
  cases s with
  | reading l => exact ⟨[], .noParser hc, rfl⟩
  | parsing p =>
    have hwalk := hm p
    unfold onParser
    dsimp only
    cases h : m p with
    | ok a q =>
      rw [h] at hwalk
      obtain ⟨us, hus⟩ := hwalk
      obtain ⟨ts, hts, hevents⟩ := hus.exists_taken
      exact ⟨_, .parser hc (ha a) hus hts, hevents⟩
    | error e q =>
      rw [h] at hwalk
      obtain ⟨us, u, hus, hadvance⟩ := hwalk
      obtain ⟨ts, hts, hevents⟩ := hus.exists_taken
      obtain ⟨htaken, hcurrent, hnext⟩ := Parser.advance_eq_error hadvance
      refine ⟨_, .parserForbidden hc e hus hts hcurrent hnext, hevents.trans ?_⟩
      rw [Stream'.append_append_stream]
      exact congrArg (_ ++ₛ ·) htaken

theorem exists_takes_openParser (s : Session) :
    ∃ es, Takes s .openParser es s.openParser.1 s.openParser.2 ∧
      s.lexer.events = es ++ₛ s.openParser.2.lexer.events := by
  unfold openParser
  cases h : Parser.start s.lexer with
  | error e l =>
    rcases Parser.start_eq_error_iff.1 h with h₁ | ⟨t, l₁, h₁, h₂⟩
    · exact ⟨_, .openParserForbidden [] (Nat.zero_le 1) e, Lexer.events_of_next_error h₁⟩
    · refine ⟨_, .openParserForbidden [t] (Nat.le_refl 1) e, ?_⟩
      rw [Lexer.events_of_next h₁, Lexer.events_of_next_error h₂]
      rfl
  | ok p l =>
    obtain ⟨t, l₁, u, h₁, h₂, rfl⟩ := Parser.start_eq_ok h
    refine ⟨_, .openParser _, ?_⟩
    rw [Lexer.events_of_next h₁, Lexer.events_of_next h₂]
    rfl

/-- A command takes events from the front, and leaves the others. -/
theorem exists_takes (s : Session) (c : Command) :
    ∃ es, Takes s c es (s.step c).1 (s.step c).2 ∧
      s.lexer.events = es ++ₛ (s.step c).2.lexer.events := by
  have hwalks := Parser.compositional_walks
  cases c with
  | next =>
    unfold step onLexer
    cases h : s.lexer.next with
    | ok t l =>
      refine ⟨_, .next t, ?_⟩
      rw [Lexer.events_of_next h, lexer_withLexer]
      rfl
    | error e l =>
      refine ⟨_, .nextForbidden e, ?_⟩
      rw [Lexer.events_of_next_error h, lexer_withLexer]
      rfl
  | peek =>
    unfold step onLexer
    cases h : s.lexer.peek with
    | ok t l =>
      refine ⟨_, .peek t, ?_⟩
      rw [lexer_withLexer, (Lexer.events_of_peek h).1]
      rfl
    | error e l =>
      refine ⟨_, .peekForbidden e, ?_⟩
      rw [(Lexer.events_of_peek_error h).1, lexer_withLexer]
      rfl
  | drain =>
    unfold step onLexer
    cases h : s.lexer.drain with
    | ok ts l =>
      refine ⟨_, .drain ts, ?_⟩
      rw [Lexer.events_of_drain h, lexer_withLexer]
    | error e l =>
      obtain ⟨ts, hts⟩ := Lexer.events_of_drain_error h
      refine ⟨_, .drainForbidden ts e, ?_⟩
      rw [hts, lexer_withLexer]
  | openParser => exact s.exists_takes_openParser
  | program => exact exists_takes_onParser rfl Parser.walks_program (by simp) s
  | expression p => exact exists_takes_onParser rfl (hwalks.expression p) (by simp) s
  | statement => exact exists_takes_onParser rfl hwalks.statement (by simp) s
  | advance => exact exists_takes_onParser rfl hwalks.advance (by simp) s
  | synchronize => exact exists_takes_onParser rfl hwalks.synchronize (by simp) s
  | statements => exact exists_takes_onParser rfl (fun p => hwalks.pure p p) (by simp) s
  | errors => exact exists_takes_onParser rfl (fun p => hwalks.pure p p) (by simp) s
  | discardCopies => exact exists_takes_onParser rfl (fun p => hwalks.pure p p) (by simp) s
  | hasErrors => exact exists_takes_onParser rfl (fun p => hwalks.pure p p) (by simp) s

/-- What commands have taken and what they have left is what there was. -/
theorem exists_takesAll (s : Session) (cs : List Command) :
    ∃ es, TakesAll s cs es ∧ s.lexer.events = es ++ₛ (s.after cs).lexer.events := by
  induction cs generalizing s with
  | nil => exact ⟨[], .nil, rfl⟩
  | cons c cs ih =>
    obtain ⟨es, hes, hevents⟩ := s.exists_takes c
    obtain ⟨fs, hfs, hevents'⟩ := ih (s.step c).2
    refine ⟨es ++ fs, .cons hes hfs, ?_⟩
    rw [hevents, hevents', Stream'.append_append_stream]
    rfl

/-! ## Looking ahead -/

theorem step_next (s : Session) : (s.step .next).1 = s.lexer.events.head.answer := by
  unfold step onLexer
  cases h : s.lexer.next with
  | ok t l => rw [Lexer.events_of_next h, Stream'.head_cons]; rfl
  | error e l => rw [Lexer.events_of_next_error h, Stream'.head_cons]; rfl

/-- Looking at a token shows the first event, however often it is done, and leaves it there. -/
theorem run_peek {s : Session} {t : Token} (h : s.lexer.events.head = .token t) (n : Nat) :
    (∀ a ∈ s.run (.replicate n .peek), a.1 = .token t) ∧
      (s.after (.replicate n .peek)).lexer.events = s.lexer.events := by
  induction n generalizing s with
  | zero => exact ⟨by simp [run], rfl⟩
  | succ n ih =>
    obtain ⟨l, hl, hevents⟩ : ∃ l, s.lexer.peek = .ok t l ∧ l.events = s.lexer.events := by
      cases hpeek : s.lexer.peek with
      | ok u l =>
        obtain ⟨hevents, hpeeked⟩ := Lexer.events_of_peek hpeek
        rw [← hevents, Lexer.events_of_peeked hpeeked, Stream'.head_cons] at h
        cases h
        exact ⟨l, rfl, hevents⟩
      | error e l =>
        rw [(Lexer.events_of_peek_error hpeek).1, Stream'.head_cons] at h
        cases h
    have hstep : s.step .peek = (.token t, s.withLexer l) := by
      unfold step onLexer
      rw [hl]
    obtain ⟨hanswers, hafter⟩ := ih (s := s.withLexer l) (by rw [lexer_withLexer, hevents, h])
    rw [lexer_withLexer, hevents] at hafter
    refine ⟨?_, ?_⟩
    · simpa [List.replicate_succ, run, hstep] using hanswers
    · simpa [List.replicate_succ, after, hstep] using hafter

/-- Looking at a forbidden word takes it. -/
theorem step_peek_forbidden {s : Session} {e : LexicalError}
    (h : s.lexer.events.head = .forbidden e) :
    (s.step .peek).1 = .interrupted e ∧ (s.step .peek).2.lexer.peeked = none ∧
      (s.step .peek).2.lexer.events = s.lexer.events.tail := by
  unfold step onLexer
  cases hpeek : s.lexer.peek with
  | ok u l =>
    obtain ⟨hevents, hpeeked⟩ := Lexer.events_of_peek hpeek
    rw [← hevents, Lexer.events_of_peeked hpeeked, Stream'.head_cons] at h
    cases h
  | error f l =>
    obtain ⟨hevents, hpeeked⟩ := Lexer.events_of_peek_error hpeek
    rw [hevents, Stream'.head_cons] at h
    cases h
    rw [hevents, Stream'.tail_cons]
    simp [hpeeked]

/-- The events of a source text end with the end of input for ever. Whatever commands are carried
out, the events that they take are the first ones of the text, in order, and those that they do not
take are still to come. A command that looks ahead shows the first event that is to come. A token
stays there, however often it is looked at, and the next pull gives it. A forbidden word is taken,
nothing is kept, and the next pull gives the event behind it. -/
theorem takesAll_of_start (source filename : String) (cs : List Command) :
    let events := (Scanner.start source filename).events
    let s := (start source filename).after cs
    (∃ es t, t.kind = .endOfInput ∧ events = es ++ₛ .const (.token t)) ∧
      (∃ es, TakesAll (start source filename) cs es ∧ events = es ++ₛ s.lexer.events) ∧
      match s.lexer.events.head with
      | .token t => ∀ n, (∀ a ∈ s.run (.replicate n .peek), a.1 = .token t) ∧
          (s.after (.replicate n .peek)).lexer.events = s.lexer.events ∧
          ((s.after (.replicate n .peek)).step .next).1 = .token t
      | .forbidden e => (s.step .peek).1 = .interrupted e ∧
          (s.step .peek).2.lexer.peeked = none ∧
          (s.step .peek).2.lexer.events = s.lexer.events.tail ∧
          ((s.step .peek).2.step .next).1 = s.lexer.events.tail.head.answer := by
  intro events s
  refine ⟨Scanner.exists_events_eq_const _, (start source filename).exists_takesAll cs, ?_⟩
  split
  · rename_i t ht
    intro n
    obtain ⟨hanswers, hafter⟩ := run_peek ht n
    refine ⟨hanswers, hafter, ?_⟩
    rw [step_next, hafter, ht]
    rfl
  · rename_i e he
    obtain ⟨hanswer, hpeeked, hevents⟩ := step_peek_forbidden he
    refine ⟨hanswer, hpeeked, hevents, ?_⟩
    rw [step_next, hevents]

end Session
end SLFront
