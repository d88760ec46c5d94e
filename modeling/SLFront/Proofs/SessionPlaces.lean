import SLFront.Proofs.Events
import SLFront.Proofs.Growth
import SLFront.Proofs.Places
import SLFront.Proofs.TreeSoundness

/-!
# Places in a session

Whatever has been asked for in a session, its scanner knows where it stands in the source text
(`Scanner.IsExact`), and whatever the session hands out, it hands out with the place that it has in
the source text (`Location.IsExact`): tokens, trees, syntax errors and fatal errors.

The invariant is `Session.IsFrom`. A lexer that stands behind a part of the text gives a token or a
fatal error that comes from the text, and stands behind a part of the text again. A parser only
hands on the tokens that it reads; what is in its trees is among them (`YieldsBlock.sound`), and it
reports errors at its own two tokens. This holds for programs that are interrupted as well, as
they are made of turns (`Parser.Completes`, `Parser.BreaksOff`).
-/
namespace SLFront

/-! ## Exact places -/

/-- The offset `k` is that of the line with which the text ends: it is right behind the last line
feed, or there is none and it is the start. -/
structure IsLineStart (cs : List Char) (k : Nat) : Prop where
  le : k ≤ cs.length
  notMem : '\n' ∉ cs.drop k
  behind : k = 0 ∨ cs[k - 1]? = some '\n'

/-- The text is a part of the source text, and the location is that of its first character. -/
def Location.IsExact (source w : List Char) (x : Location) : Prop :=
  ∃ o k : Nat, x.offset = o ∧ o + w.length ≤ source.length ∧
    x.line = 1 + (source.take o).count '\n' ∧
    IsLineStart (source.take o) k ∧ x.column = o - k + 1 ∧
    (source.drop o).take w.length = w

/-- The scanner stands in the source text and has counted right. -/
structure Scanner.IsExact (source : List Char) (s : Scanner) : Prop where
  lineStart_le : s.lineStart ≤ s.offset
  offset_le : s.offset ≤ source.length
  line : s.line = 1 + (source.take s.offset).count '\n'
  lineStart : IsLineStart (source.take s.offset) s.lineStart
  rest : s.rest = source.drop s.offset

section
variable {source before cs w : List Char} {k : Nat} {filename : String}

/-- A text ends with its last line, and in front of that there is nothing or a line feed. -/
theorem exists_append_lastLine (cs : List Char) :
    ∃ front, cs = front ++ lastLine cs ∧ '\n' ∉ lastLine cs ∧
      (front = [] ∨ ∃ fs, front = fs ++ ['\n']) := by
  refine ⟨cs.rdropWhile (· ≠ '\n'), (List.rdropWhile_append_rtakeWhile ..).symm, ?_, ?_⟩
  · intro hn
    have hne := List.mem_rtakeWhile_imp hn
    simp at hne
  · rw [or_iff_not_imp_left]
    intro hfront
    have hlast := List.rdropWhile_last_not _ _ hfront
    rw [decide_eq_true_eq, not_not] at hlast
    have hconcat := List.dropLast_concat_getLast hfront
    rw [hlast] at hconcat
    exact ⟨_, hconcat.symm⟩

theorem isLineStart_of_lastLine (h : k + (lastLine cs).length = cs.length) :
    IsLineStart cs k := by
  obtain ⟨front, hcs, hline, hfront⟩ := exists_append_lastLine cs
  obtain rfl : k = front.length := by
    have hlength := congrArg List.length hcs
    rw [List.length_append] at hlength
    omega
  rw [hcs]
  refine ⟨by simp, by simpa using hline, ?_⟩
  rcases hfront with rfl | ⟨fs, rfl⟩
  · exact .inl rfl
  · exact .inr (by simp)

/-- What stands behind the first characters of a source text has an exact place. -/
theorem Location.isExact_behind {rest : List Char} (h : source = before ++ (w ++ rest)) :
    (Location.behind filename before).IsExact source w := by
  obtain ⟨front, hbefore, -⟩ := exists_append_lastLine before
  have hlength := congrArg List.length hbefore
  rw [List.length_append] at hlength
  subst h
  refine ⟨before.length, front.length, rfl, by simp, ?_, ?_, ?_, by simp⟩
  · rw [List.take_left]
    simp [behind, Int.add_comm]
  · rw [List.take_left]
    exact isLineStart_of_lastLine hlength.symm
  · simp only [behind]
    omega

/-- A scanner that has counted what is in front of it stands exactly. -/
theorem Scanner.StandsBehind.isExact {s : Scanner} (h : s.StandsBehind before)
    (hs : source = before ++ s.rest) : s.IsExact source := by
  have hoffset := h.offset
  have hlineStart := h.lineStart
  subst hs
  refine ⟨by omega, by simp [hoffset], ?_, ?_, ?_⟩
  · rw [h.line, hoffset, List.take_left, Nat.add_comm]
  · rw [hoffset, List.take_left]
    exact isLineStart_of_lastLine hlineStart
  · rw [hoffset, List.drop_left]

end

/-! ## What comes from a source text -/

/-- The token stands in the source text where it says. -/
def Token.IsFrom (source : List Char) (filename : String) (t : Token) : Prop :=
  ∃ before rest, source = before ++ (t.lexeme.toList ++ rest) ∧
    t.location = .behind filename before

/-- The forbidden word stands in the source text where the error says. -/
def LexicalError.IsFrom (source : List Char) (filename : String) (e : LexicalError) : Prop :=
  ∃ before rest, source = before ++ (e.lexeme.toList ++ rest) ∧
    e.location = .behind filename before

theorem Token.IsFrom.isExact {source : List Char} {filename : String} {t : Token}
    (h : t.IsFrom source filename) : t.location.IsExact source t.lexeme.toList := by
  obtain ⟨before, rest, hsource, hplace⟩ := h
  rw [hplace]
  exact Location.isExact_behind hsource

theorem LexicalError.IsFrom.isExact {source : List Char} {filename : String} {e : LexicalError}
    (h : e.IsFrom source filename) : e.location.IsExact source e.lexeme.toList := by
  obtain ⟨before, rest, hsource, hplace⟩ := h
  rw [hplace]
  exact Location.isExact_behind hsource

/-- The scanner reads the source text, and has counted what is in front of it. -/
structure Scanner.IsFrom (source : List Char) (filename : String) (s : Scanner) : Prop where
  filename : s.filename = filename
  behind : ∃ before, source = before ++ s.rest ∧ s.StandsBehind before

/-- The lexer reads the source text, and the token that was looked at is from there. -/
structure Lexer.IsFrom (source : List Char) (filename : String) (l : Lexer) : Prop where
  scanner : l.scanner.IsFrom source filename
  peeked : ∀ t ∈ l.peeked, t.IsFrom source filename

/-- The tokens that are given come from the source text, or the forbidden word does, and what is
left is from there. -/
def Lexer.Gives (source : List Char) (filename : String) {α : Type} (tokens : α → List Token) :
    EStateM.Result LexicalError Lexer α → Prop
  | .ok a l => (∀ t ∈ tokens a, t.IsFrom source filename) ∧ l.IsFrom source filename
  | .error e l => e.IsFrom source filename ∧ l.IsFrom source filename

variable {source : List Char} {filename : String}

theorem Scanner.IsFrom.scan {s : Scanner} (h : s.IsFrom source filename) :
    match s.scan with
    | .ok t s' => t.IsFrom source filename ∧ s'.IsFrom source filename
    | .error e s' => e.IsFrom source filename ∧ s'.IsFrom source filename := by
  obtain ⟨rfl, before, hsource, hbehind⟩ := h
  cases hs : s.scan with
  | ok t s' =>
    obtain ⟨g, hrest, hplace, hname, hbehind'⟩ := hbehind.scan_eq_ok hs
    rw [hrest] at hsource
    refine ⟨⟨before ++ g, s'.rest, ?_, hplace⟩, hname, _, ?_, hbehind'⟩
    · rw [hsource, List.append_assoc]
    · rw [hsource, List.append_assoc, List.append_assoc]
  | error e s' =>
    obtain ⟨g, w, hrest, rfl, hname, hbehind'⟩ := hbehind.scan_eq_error hs
    rw [hrest] at hsource
    refine ⟨⟨before ++ g, s'.rest, ?_, rfl⟩, hname, _, ?_, hbehind'⟩
    · rw [hsource, List.append_assoc]
      simp [LexicalError.forbidden]
    · rw [hsource, List.append_assoc, List.append_assoc]

namespace Lexer.IsFrom
variable {l : Lexer}

theorem start (source filename : String) :
    (Lexer.start source filename).IsFrom source.toList filename where
  scanner := ⟨rfl, [], rfl, Scanner.standsBehind_start source filename⟩
  peeked := by simp [Lexer.start]

theorem gives_next (h : l.IsFrom source filename) : Gives source filename ([·]) l.next := by
  unfold next
  split
  · rename_i t hp
    exact ⟨by simpa using h.peeked t hp, h.scanner, by simp⟩
  · have hscan := h.scanner.scan
    split <;> rename_i hs <;> rw [hs] at hscan
    · exact ⟨by simpa using hscan.1, hscan.2, h.peeked⟩
    · exact ⟨hscan.1, hscan.2, h.peeked⟩

theorem gives_peek (h : l.IsFrom source filename) : Gives source filename ([·]) l.peek := by
  unfold peek
  split
  · rename_i t hp
    exact ⟨by simpa using h.peeked t hp, h⟩
  · have hscan := h.scanner.scan
    split <;> rename_i hs <;> rw [hs] at hscan
    · exact ⟨by simpa using hscan.1, hscan.2, by simpa using hscan.1⟩
    · exact ⟨hscan.1, hscan.2, h.peeked⟩

theorem gives_drain (h : l.IsFrom source filename) : Gives source filename id l.drain := by
  fun_induction drain l with
  | case1 l e l₁ hnext =>
    have hgives := h.gives_next
    rwa [hnext] at hgives
  | case2 l t l₁ hnext =>
    have hgives := h.gives_next
    rwa [hnext] at hgives
  | case3 l t l₁ hnext _ _ ts l₂ hts ih =>
    have hgives := h.gives_next
    rw [hnext] at hgives
    have hrest := ih hgives.2
    rw [hts] at hrest
    exact ⟨List.forall_mem_cons.2 ⟨hgives.1 t List.mem_cons_self, hrest.1⟩, hrest.2⟩
  | case4 l t l₁ hnext _ _ e l₂ he ih =>
    have hgives := h.gives_next
    rw [hnext] at hgives
    have hrest := ih hgives.2
    rwa [he] at hrest

end Lexer.IsFrom

/-- A cursor whose tokens come from the source text reads tokens from there. -/
structure Cursor.IsFrom (source : List Char) (filename : String) (c : Cursor) : Prop where
  lexer : c.lexer.IsFrom source filename
  current : c.current.IsFrom source filename
  next : c.next.IsFrom source filename

namespace Cursor.IsFrom
variable {c d : Cursor} {us : List Token}

theorem of_step (h : c.IsFrom source filename) (hd : c.step? = some d) :
    d.IsFrom source filename := by
  have hgives := h.lexer.gives_next
  unfold step? at hd
  split at hd <;> rename_i hl
  · cases hd
    rw [hl] at hgives
    exact ⟨hgives.2, h.next, hgives.1 _ List.mem_cons_self⟩
  · cases hd

theorem mem_of_reads (h : c.IsFrom source filename) (hd : c.Reads us d) :
    ∀ t ∈ us, t.IsFrom source filename := by
  induction hd with
  | refl => simp
  | step hs _ ih => exact List.forall_mem_cons.2 ⟨h.next, ih (h.of_step hs)⟩

end Cursor.IsFrom

/-! ## Parsers -/

/-- What a parser has recorded, as tokens: those of its trees and of its errors. -/
def Parser.recorded (s : Parser) : List Token :=
  s.statements.flatMap Block.inOrder ++ s.errors.map (·.token)

/-- All that the parser has comes from the source text. -/
structure Parser.IsFrom (source : List Char) (filename : String) (s : Parser) : Prop where
  cursor : s.cursor.IsFrom source filename
  recorded : ∀ t ∈ s.recorded, t.IsFrom source filename

namespace Parser
variable {s t u : Parser} {e : LexicalError}

/-- A computation on a parser whose tokens come from the source text leaves them so, and a forbidden
word that it meets comes from there. -/
def Keeps (source : List Char) (filename : String) {α : Type} (s : Parser)
    (r : EStateM.Result LexicalError Parser α) : Prop :=
  s.IsFrom source filename → match r with
    | .ok _ t => t.IsFrom source filename
    | .error e t => e.IsFrom source filename ∧ t.IsFrom source filename

theorem IsFrom.moved {c : Cursor} (h : s.IsFrom source filename)
    (hc : c.IsFrom source filename) : (s.moved c).IsFrom source filename := ⟨hc, h.recorded⟩

/-- Moving on takes a token from the lexer, or meets a forbidden word and leaves the next token as
the current one too. -/
theorem keeps_advance (source : List Char) (filename : String) (s : Parser) :
    Keeps source filename s s.advance := by
  intro hs
  have hgives : Lexer.Gives source filename ([·]) s.lexer.next := hs.cursor.lexer.gives_next
  unfold advance
  cases hl : s.lexer.next with
  | ok t l =>
    rw [hl] at hgives
    have hc : (⟨l, s.next, t⟩ : Cursor).IsFrom source filename :=
      ⟨hgives.2, hs.cursor.next, hgives.1 t List.mem_cons_self⟩
    exact hs.moved hc
  | error e l =>
    rw [hl] at hgives
    have hc : (⟨l, s.next, s.next⟩ : Cursor).IsFrom source filename :=
      ⟨hgives.2, hs.cursor.next, hs.cursor.next⟩
    exact ⟨hgives.1, hs.moved hc⟩

theorem compositional_keeps (source : List Char) (filename : String) :
    Compositional (Keeps source filename) where
  pure _ _ := id
  advance := keeps_advance source filename
  report kind x s hx hs := by
    have hfrom : x.IsFrom source filename := by
      rcases hx with rfl | rfl
      · exact hs.cursor.current
      · exact hs.cursor.next
    refine ⟨hs.cursor, fun t ht => ?_⟩
    have hmem : t ∈ s.recorded ++ [x] := by
      simpa [recorded] using ht
    rcases List.mem_append.1 hmem with hmem | hmem
    · exact hs.recorded t hmem
    · exact List.mem_singleton.1 hmem ▸ hfrom
  notify _ hs := ⟨hs.cursor, hs.recorded⟩
  bind := by
    intro α β m f s hm hf hs
    have hms := hm hs
    cases h : m s with
    | ok a t =>
      rw [h] at hms
      rw [bind_of_ok h]
      exact hf a t h hms
    | error e t =>
      rw [h] at hms
      rw [bind_of_error h]
      exact hms

namespace IsFrom
variable {b : Option Block} {bs : List Block}

theorem mem_of_passage {ts : List Token} {es : List SyntaxError} (hs : s.IsFrom source filename)
    (h : s.Passage ts es t) : ∀ x ∈ s.current :: ts, x.IsFrom source filename :=
  List.forall_mem_cons.2 ⟨hs.cursor.current, hs.cursor.mem_of_reads h.reads⟩

theorem of_expression {p : Int} {r : Option Expr} (hs : s.IsFrom source filename)
    (h : expression p s = .ok r t) :
    ∀ x ∈ r.toList.flatMap Expr.inOrder, x.IsFrom source filename := by
  cases r with
  | none => simp
  | some e =>
    obtain ⟨ts, hts, hspell, -⟩ := expression_eq_ok_some h
    intro x hx
    rw [Option.toList_some, List.flatMap_singleton] at hx
    exact hs.mem_of_passage hts x (hspell.inOrder_sublist.subset hx)

theorem of_statement (hs : s.IsFrom source filename) (h : statement s = .ok b t) :
    ∀ x ∈ b.toList.flatMap Block.inOrder, x.IsFrom source filename := by
  rcases statement_eq_ok h with ⟨rfl, -⟩ | ⟨c, rfl, hopens, hc⟩ | ⟨rfl, -⟩
  · simp
  · obtain ⟨us, es, hus, hsound⟩ := (yieldsBlock_of_eq_ok hc).sound hopens
    exact fun x hx => hs.mem_of_passage hus x (hsound.inOrder.subset hx)
  · simp

/-- A statement that is recorded is made of tokens that come from the source text. -/
theorem of_append? (hs : s.IsFrom source filename) (hb : statement s = .ok b t)
    (ha : append? b t = .ok () u) : u.IsFrom source filename := by
  have ht := (compositional_keeps source filename).statement s hs
  rw [hb] at ht
  obtain ⟨hcursor, hstatements, herrors⟩ := append?_eq_ok ha
  refine ⟨hcursor ▸ ht.cursor, fun x hx => ?_⟩
  rw [Parser.recorded, hstatements, herrors, List.flatMap_append, List.append_assoc,
    List.mem_append, List.mem_append] at hx
  rcases hx with hx | hx | hx
  · exact ht.recorded x (List.mem_append_left _ hx)
  · exact hs.of_statement hb x hx
  · exact ht.recorded x (List.mem_append_right _ hx)

theorem of_completes (hs : s.IsFrom source filename) (h : s.Completes bs t) :
    t.IsFrom source filename := by
  induction h with
  | refl => exact hs
  | turn _ hb ha hv _ ih =>
    have hkeeps := keeps_advance source filename _ (hs.of_append? hb ha)
    rw [hv] at hkeeps
    exact ih hkeeps

theorem of_breaksOff (hs : s.IsFrom source filename) (h : s.BreaksOff b e t) :
    e.IsFrom source filename ∧ t.IsFrom source filename := by
  cases h with
  | inside _ hb =>
    have hkeeps := (compositional_keeps source filename).statement s hs
    rwa [hb] at hkeeps
  | behind _ hb ha hv =>
    have hkeeps := keeps_advance source filename _ (hs.of_append? hb ha)
    rwa [hv] at hkeeps

end IsFrom

theorem keeps_program (source : List Char) (filename : String) (s : Parser) :
    Keeps source filename s s.program := by
  intro hs
  cases h : s.program with
  | ok a t =>
    obtain ⟨u, hu, ht⟩ := program_eq_ok h
    obtain ⟨bs, hbs, -⟩ := completes_of_allStatements hu
    have hu := hs.of_completes hbs
    cases ht
    exact ⟨hu.cursor, hu.recorded⟩
  | error e t =>
    obtain ⟨bs, u, b, hbs, hb⟩ := allStatements_eq_error_iff.1 (program_eq_error h)
    exact (hs.of_completes hbs).of_breaksOff hb

/-- The first two tokens of a parser come from the source text. -/
theorem isFrom_start {l : Lexer} (h : l.IsFrom source filename) :
    match start l with
    | .ok p _ => p.IsFrom source filename
    | .error e l' => e.IsFrom source filename ∧ l'.IsFrom source filename := by
  have hgives := h.gives_next
  cases hstart : start l with
  | ok p l' =>
    obtain ⟨x, l₁, y, h₁, h₂, rfl⟩ := start_eq_ok hstart
    rw [h₁] at hgives
    have hgives' := hgives.2.gives_next
    rw [h₂] at hgives'
    have hx := hgives.1 x List.mem_cons_self
    have hy := hgives'.1 y List.mem_cons_self
    exact ⟨⟨hgives'.2, hx, hy⟩, by simp [recorded]⟩
  | error e l' =>
    rcases start_eq_error_iff.1 hstart with h₁ | ⟨x, l₁, h₁, h₂⟩
    · rwa [h₁] at hgives
    · rw [h₁] at hgives
      have hgives' := hgives.2.gives_next
      rwa [h₂] at hgives'

end Parser

/-! ## Sessions -/

namespace Session

/-- The tokens that an answer hands out, those of its trees and of its errors included. -/
def Answer.shown : Answer → List Token
  | .token t => [t]
  | .tokens ts => ts
  | .expression e => e.toList.flatMap Expr.inOrder
  | .statement b => b.toList.flatMap Block.inOrder
  | .statements bs => bs.flatMap Block.inOrder
  | .errors es => es.map (·.token)
  | .opened | .done | .flag _ | .noParser | .interrupted _ => []

/-- The tokens that a session holds: the one that was looked at, those at which its parser stands,
and those that the parser has recorded. -/
def tokens : Session → List Token
  | reading l => l.peeked.toList
  | parsing p => p.lexer.peeked.toList ++ p.current :: p.next :: p.recorded

/-- What the answer hands out comes from the source text. -/
structure Answer.IsFrom (source : List Char) (filename : String) (a : Answer) : Prop where
  shown : ∀ t ∈ a.shown, t.IsFrom source filename
  interrupted : ∀ e, a = .interrupted e → e.IsFrom source filename

/-- What the session holds comes from the source text. -/
def IsFrom (source : List Char) (filename : String) : Session → Prop
  | reading l => l.IsFrom source filename
  | parsing p => p.IsFrom source filename

variable {s : Session}

theorem IsFrom.lexer (h : s.IsFrom source filename) : s.lexer.IsFrom source filename := by
  cases s with
  | reading => exact h
  | parsing => exact h.cursor.lexer

theorem IsFrom.withLexer {l : Lexer} (h : s.IsFrom source filename)
    (hl : l.IsFrom source filename) : (s.withLexer l).IsFrom source filename := by
  cases s with
  | reading => exact hl
  | parsing => exact ⟨⟨hl, h.cursor.current, h.cursor.next⟩, h.recorded⟩

theorem IsFrom.tokens (h : s.IsFrom source filename) :
    ∀ t ∈ s.tokens, t.IsFrom source filename := by
  have hpeeked : ∀ t ∈ s.lexer.peeked.toList, t.IsFrom source filename := fun t ht =>
    h.lexer.peeked t (Option.mem_toList.1 ht)
  cases s with
  | reading => exact hpeeked
  | parsing p =>
    exact List.forall_mem_append.2 ⟨hpeeked, List.forall_mem_cons.2 ⟨h.cursor.current,
      List.forall_mem_cons.2 ⟨h.cursor.next, h.recorded⟩⟩⟩

theorem isFrom_interrupted {e : LexicalError} (h : e.IsFrom source filename) :
    (Answer.interrupted e).IsFrom source filename := by
  refine ⟨by simp [Answer.shown], ?_⟩
  rintro _ ⟨⟩
  exact h

section
variable {α : Type}

theorem IsFrom.onLexer {m : EStateM LexicalError Lexer α} {answer : α → Answer}
    {tokens : α → List Token} (h : s.IsFrom source filename)
    (hm : Lexer.Gives source filename tokens (m s.lexer))
    (htokens : ∀ a, (answer a).shown = tokens a) (hanswer : ∀ a e, answer a ≠ .interrupted e) :
    (s.onLexer m answer).1.IsFrom source filename ∧
      (s.onLexer m answer).2.IsFrom source filename := by
  unfold Session.onLexer
  split <;> rename_i hl <;> rw [hl] at hm
  · exact ⟨⟨htokens _ ▸ hm.1, fun e he => absurd he (hanswer _ e)⟩, h.withLexer hm.2⟩
  · exact ⟨isFrom_interrupted hm.1, h.withLexer hm.2⟩

theorem IsFrom.onParser {m : Parse α} {answer : α → Answer} (h : s.IsFrom source filename)
    (hm : ∀ p, Parser.Keeps source filename p (m p))
    (htokens : ∀ p a q, Parser.IsFrom source filename p → m p = .ok a q →
      ∀ t ∈ (answer a).shown, t.IsFrom source filename)
    (hanswer : ∀ a e, answer a ≠ .interrupted e) :
    (s.onParser m answer).1.IsFrom source filename ∧
      (s.onParser m answer).2.IsFrom source filename := by
  cases s with
  | reading l => exact ⟨⟨by simp [Session.onParser, Answer.shown], by simp [Session.onParser]⟩, h⟩
  | parsing p =>
    have hkeeps := hm p h
    unfold Session.onParser
    dsimp only
    split <;> rename_i hp <;> rw [hp] at hkeeps
    · exact ⟨⟨htokens p _ _ h hp, fun e he => absurd he (hanswer _ e)⟩, hkeeps⟩
    · exact ⟨isFrom_interrupted hkeeps.1, hkeeps.2⟩

end

theorem IsFrom.openParser (h : s.IsFrom source filename) :
    s.openParser.1.IsFrom source filename ∧ s.openParser.2.IsFrom source filename := by
  have hstart := Parser.isFrom_start h.lexer
  unfold Session.openParser
  split <;> rename_i hp <;> rw [hp] at hstart
  · exact ⟨⟨by simp [Answer.shown], by simp⟩, hstart⟩
  · exact ⟨isFrom_interrupted hstart.1, hstart.2⟩

/-- What a command hands out comes from the source text, and so does what it leaves. -/
theorem IsFrom.step (h : s.IsFrom source filename) (c : Command) :
    (s.step c).1.IsFrom source filename ∧ (s.step c).2.IsFrom source filename := by
  have hkeeps := Parser.compositional_keeps source filename
  cases c with
  | next => exact h.onLexer h.lexer.gives_next (fun _ => rfl) (by simp)
  | peek => exact h.onLexer h.lexer.gives_peek (fun _ => rfl) (by simp)
  | drain => exact h.onLexer h.lexer.gives_drain (fun _ => rfl) (by simp)
  | openParser => exact h.openParser
  | program => exact h.onParser (Parser.keeps_program _ _) (by simp [Answer.shown]) (by simp)
  | expression k =>
    exact h.onParser (hkeeps.expression k) (fun _ _ _ hp => hp.of_expression) (by simp)
  | statement => exact h.onParser hkeeps.statement (fun _ _ _ hp => hp.of_statement) (by simp)
  | advance => exact h.onParser hkeeps.advance (by simp [Answer.shown]) (by simp)
  | synchronize =>
    exact h.onParser hkeeps.synchronize (by simp [Answer.shown]) (by simp)
  | statements =>
    refine h.onParser (fun p => hkeeps.pure p p) (fun p _ _ hp hq => ?_) (by simp)
    cases hq
    exact fun t ht => hp.recorded t (List.mem_append_left _ ht)
  | errors =>
    refine h.onParser (fun p => hkeeps.pure p p) (fun p _ _ hp hq => ?_) (by simp)
    cases hq
    exact fun t ht => hp.recorded t (List.mem_append_right _ ht)
  | discardCopies | hasErrors =>
    exact h.onParser (fun p => hkeeps.pure p p) (by simp [Answer.shown]) (by simp)

theorem IsFrom.after (h : s.IsFrom source filename) (cs : List Command) :
    (s.after cs).IsFrom source filename := by
  induction cs generalizing s with
  | nil => exact h
  | cons c cs ih => exact ih (h.step c).2

/-- After whatever commands, the scanner stands exactly in the source text, and the tokens that the
session holds have their exact places. The next command, whatever it is, hands out tokens with their
exact places, or is interrupted by a forbidden word at its exact place. -/
theorem places_exact (source filename : String) (cs : List Command) :
    let s := (start source filename).after cs
    s.lexer.scanner.IsExact source.toList ∧
      (∀ t ∈ s.tokens, t.location.IsExact source.toList t.lexeme.toList) ∧
      ∀ c, (∀ t ∈ (s.step c).1.shown, t.location.IsExact source.toList t.lexeme.toList) ∧
        ∀ e, (s.step c).1 = .interrupted e →
          e.location.IsExact source.toList e.lexeme.toList := by
  intro s
  have hs : s.IsFrom source.toList filename :=
    IsFrom.after (s := start source filename) (Lexer.IsFrom.start source filename) cs
  obtain ⟨-, before, hsource, hbehind⟩ := hs.lexer.scanner
  refine ⟨hbehind.isExact hsource, fun t ht => (hs.tokens t ht).isExact, fun c => ?_⟩
  have hanswer := (hs.step c).1
  exact ⟨fun t ht => (hanswer.shown t ht).isExact, fun e he => (hanswer.interrupted e he).isExact⟩

end Session
end SLFront
