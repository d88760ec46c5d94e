import SLFront.Session
import SLFront.Proofs.BlockRun

/-!
# Records only grow

A parser adds to its statements and to its errors, and takes nothing back. It leaves a notice of
every error when it finds it, so that the notices of a computation tell which errors it has found;
all of them stay, in their order, whether or not the computation is interrupted (`Parser.Adds`).

A program is a sequence of turns, each with a statement and the step behind it
(`Parser.Completes`). A forbidden word breaks off one of the turns: in its statement, of which
nothing is recorded then but the errors, or in the step behind it, where the statement is recorded
already (`Parser.BreaksOff`). What each command of a session does to the parser follows
(`Session.Effect`).
-/
namespace SLFront

namespace Parser
variable {s t u : Parser} {bs cs : List Block} {ns ms : List Notice}

/-- From the one state to the other the statements `bs` are recorded and the notices `ns` are left,
with the errors that they are about. -/
structure Adds (s : Parser) (bs : List Block) (ns : List Notice) (t : Parser) : Prop where
  statements : t.statements = s.statements ++ bs
  notices : t.notices = s.notices ++ ns
  errors : t.errors = s.errors ++ ns.filterMap Notice.error?

namespace Adds

theorem refl (s : Parser) : s.Adds [] [] s := by constructor <;> exact (List.append_nil _).symm

theorem of_moved (s : Parser) (c : Cursor) : s.Adds [] [] (s.moved c) :=
  ⟨(refl s).statements, (refl s).notices, (refl s).errors⟩

theorem trans (h : s.Adds bs ns t) (h' : t.Adds cs ms u) : s.Adds (bs ++ cs) (ns ++ ms) u where
  statements := by rw [h'.statements, h.statements, List.append_assoc]
  notices := by rw [h'.notices, h.notices, List.append_assoc]
  errors := by rw [h'.errors, h.errors, List.append_assoc, List.filterMap_append]

theorem statements_prefix (h : s.Adds bs ns t) : s.statements <+: t.statements :=
  ⟨bs, h.statements.symm⟩

theorem errors_prefix (h : s.Adds bs ns t) : s.errors <+: t.errors := ⟨_, h.errors.symm⟩

end Adds

/-! ## Routines -/

theorem exists_after_advance_eq_moved (s : Parser) : ∃ c, after s.advance = s.moved c := by
  obtain ⟨l, t, h⟩ := after_advance s
  exact ⟨⟨l, s.next, t⟩, h⟩

/-- Skipping moves the parser and does nothing else, even when it is interrupted. -/
theorem exists_after_advanceWhile_eq_moved (test : Token.Kind → Token.Kind → Bool)
    (stops : test .endOfInput .endOfInput = false) (s : Parser) :
    ∃ c, after (advanceWhile test stops s) = s.moved c := by
  fun_induction advanceWhile test stops s with
  | case1 s _ _ s' hs _ ih =>
    obtain ⟨c, hc⟩ := exists_after_advance_eq_moved s
    obtain ⟨d, hd⟩ := ih
    rw [hs, after_ok] at hc
    exact ⟨d, by rw [hd, hc, moved_moved]⟩
  | case2 s _ _ _ hs =>
    obtain ⟨c, hc⟩ := exists_after_advance_eq_moved s
    exact ⟨c, by rw [← hc, hs]⟩
  | case3 s _ => exact ⟨s.cursor, rfl⟩

/-- A notice that is about no error records none. -/
theorem adds_notify {n : Notice} (hn : n.error? = none) (h : notify n s = .ok () t) :
    s.Adds [] [n] t := by
  cases h
  refine ⟨(List.append_nil _).symm, rfl, ?_⟩
  rw [List.filterMap_cons_none hn]
  exact (List.append_nil _).symm

/-- The computation records no statements, and no errors but those of its notices. -/
def Notes {α : Type} (s : Parser) (r : EStateM.Result LexicalError Parser α) : Prop :=
  ∃ ns, s.Adds [] ns (after r)

theorem compositional_notes : Compositional Notes where
  pure _ s := ⟨[], .refl s⟩
  advance s := by
    obtain ⟨c, hc⟩ := exists_after_advance_eq_moved s
    exact ⟨[], by rw [hc]; exact .of_moved s c⟩
  report kind x _ _ := ⟨[.syntaxError ⟨kind, x⟩], (List.append_nil _).symm, rfl, rfl⟩
  notify hn := ⟨_, adds_notify hn rfl⟩
  bind := by
    intro α β m f s hm hf
    obtain ⟨ns, hns⟩ := hm
    cases h : m s with
    | ok a t =>
      obtain ⟨ms, hms⟩ := hf a t h
      rw [h] at hns
      rw [bind_of_ok h]
      exact ⟨_, hns.trans hms⟩
    | error e t =>
      rw [h] at hns
      rw [bind_of_error h]
      exact ⟨ns, hns⟩

theorem Notes.exists_adds {α : Type} {m : Parse α} {r : EStateM.Result LexicalError Parser α}
    (hm : Notes s (m s)) (h : m s = r) : ∃ ns, s.Adds [] ns (after r) := h ▸ hm

theorem adds_append? {b : Option Block} (h : append? b s = .ok () t) : s.Adds b.toList [] t := by
  cases b <;> cases h
  · exact .refl s
  · exact ⟨rfl, (List.append_nil _).symm, (List.append_nil _).symm⟩

/-! ## Programs -/

/-- Turns of a program that are completed from the one state to the other, with the blocks that
they have recorded. -/
inductive Completes : Parser → List Block → Parser → Prop
  | refl (s : Parser) : Completes s [] s
  | turn {s u u' v t : Parser} {b : Option Block} {bs : List Block}
    (hc : s.current.kind ≠ .endOfInput) (hb : statement s = .ok b u)
    (ha : append? b u = .ok () u') (hv : u'.advance = .ok () v) (rest : Completes v bs t) :
    Completes s (b.toList ++ bs) t

/-- A forbidden word breaks off a turn: inside its statement, or behind it, where the block that it
may have left is recorded already. -/
inductive BreaksOff (s : Parser) : Option Block → LexicalError → Parser → Prop
  | inside {t : Parser} {e : LexicalError} (hc : s.current.kind ≠ .endOfInput)
    (hb : statement s = .error e t) : BreaksOff s none e t
  | behind {u u' t : Parser} {b : Option Block} {e : LexicalError}
    (hc : s.current.kind ≠ .endOfInput) (hb : statement s = .ok b u)
    (ha : append? b u = .ok () u') (hv : u'.advance = .error e t) : BreaksOff s b e t

theorem exists_adds_of_statement {b : Option Block} {u' : Parser} (hb : statement s = .ok b u)
    (ha : append? b u = .ok () u') : ∃ ns, s.Adds b.toList ns u' := by
  obtain ⟨ns, hns⟩ := (compositional_notes.statement s).exists_adds hb
  exact ⟨_, hns.trans (adds_append? ha)⟩

theorem Completes.exists_adds (h : s.Completes bs t) : ∃ ns, s.Adds bs ns t := by
  induction h with
  | refl s => exact ⟨[], .refl s⟩
  | turn _ hb ha hv _ ih =>
    obtain ⟨ns, hns⟩ := exists_adds_of_statement hb ha
    obtain ⟨ks, hks⟩ := (compositional_notes.advance _).exists_adds hv
    obtain ⟨ms, hms⟩ := ih
    exact ⟨_, hns.trans (hks.trans hms)⟩

theorem BreaksOff.exists_adds {b : Option Block} {e : LexicalError} (h : s.BreaksOff b e t) :
    ∃ ns, s.Adds b.toList ns t := by
  cases h with
  | inside _ hb => exact (compositional_notes.statement s).exists_adds hb
  | behind _ hb ha hv =>
    obtain ⟨ns, hns⟩ := exists_adds_of_statement hb ha
    obtain ⟨ms, hms⟩ := (compositional_notes.advance _).exists_adds hv
    exact ⟨_, by simpa using hns.trans hms⟩

/-- A program that is not interrupted completes all its turns. -/
theorem completes_of_allStatements (h : allStatements s = .ok () t) :
    ∃ bs, s.Completes bs t ∧ t.current.kind = .endOfInput := by
  induction hr : s.remaining using Nat.strongRecOn generalizing s with
  | _ n ih =>
    subst hr
    obtain ⟨hend, rfl⟩ | ⟨hend, b, u, u', v, hu, hu', hv, lt, h⟩ := allStatements_eq_ok h
    · exact ⟨[], .refl t, hend⟩
    · obtain ⟨bs, hbs, hstop⟩ := ih _ lt h rfl
      exact ⟨_, .turn hend hu hu' hv hbs, hstop⟩

/-- A program that is interrupted is so in its first turn, or behind it. -/
theorem allStatements_eq_error {e : LexicalError} (h : allStatements s = .error e t) :
    (∃ b, s.BreaksOff b e t) ∨ s.current.kind ≠ .endOfInput ∧ ∃ b u u' v,
      statement s = .ok b u ∧ append? b u = .ok () u' ∧ u'.advance = .ok () v ∧
        v.remaining < s.remaining ∧ allStatements v = .error e t := by
  rw [allStatements_eq] at h
  by_cases hend : s.current.kind = .endOfInput
  · rw [if_pos hend] at h
    cases h
  rw [if_neg hend] at h
  rcases bind_eq_error_iff.1 h with hb | ⟨b, u, hb, h⟩
  · exact .inl ⟨none, .inside hend hb⟩
  rcases bind_eq_error_iff.1 h with ha | ⟨_, u', ha, h⟩
  · cases b <;> cases ha
  rcases bind_eq_error_iff.1 h with hv | ⟨_, v, hv, h⟩
  · exact .inl ⟨b, .behind hend hb ha hv⟩
  · exact .inr ⟨hend, b, u, u', v, hb, ha, hv, remaining_lt_of_turn hend hb ha hv, h⟩

theorem BreaksOff.allStatements_eq {b : Option Block} {e : LexicalError}
    (h : s.BreaksOff b e t) : allStatements s = .error e t := by
  rw [Parser.allStatements_eq]
  cases h with
  | inside hc hb => rw [if_neg hc, bind_of_error hb]
  | behind hc hb ha hv => rw [if_neg hc, bind_of_ok hb, bind_of_ok ha, bind_of_error hv]

/-- A program is interrupted if and only if a turn is broken off behind those that it has
completed. -/
theorem allStatements_eq_error_iff {e : LexicalError} :
    allStatements s = .error e t ↔ ∃ bs u b, s.Completes bs u ∧ u.BreaksOff b e t := by
  constructor
  · intro h
    induction hr : s.remaining using Nat.strongRecOn generalizing s with
    | _ n ih =>
      subst hr
      obtain ⟨b, hb⟩ | ⟨hend, b, u, u', v, hu, hu', hv, lt, h⟩ := allStatements_eq_error h
      · exact ⟨[], s, b, .refl s, hb⟩
      · obtain ⟨bs, w, c, hbs, hc⟩ := ih _ lt h rfl
        exact ⟨_, w, c, .turn hend hu hu' hv hbs, hc⟩
  · rintro ⟨bs, u, b, h, hb⟩
    induction h with
    | refl s => exact hb.allStatements_eq
    | turn hc hu hu' hv _ ih =>
      rw [Parser.allStatements_eq, if_neg hc, bind_of_ok hu, bind_of_ok hu', bind_of_ok hv]
      exact ih hb

/-- Behind all its turns a program leaves one more notice. -/
theorem program_eq_ok {a : Bool} (h : program s = .ok a t) :
    ∃ u, allStatements s = .ok () u ∧
      notify (.finished u.statements.length u.errors.length) u = .ok () t := by
  obtain ⟨_, u, hu, h⟩ := bind_eq_ok_iff.1 h
  cases h
  exact ⟨u, hu, rfl⟩

theorem program_eq_error {e : LexicalError} (h : program s = .error e t) :
    allStatements s = .error e t := by
  rcases bind_eq_error_iff.1 h with h | ⟨_, u, _, h⟩
  · exact h
  · cases h

end Parser

/-! ## Commands -/

namespace Session
variable {p : Parser} {c : Command}

/-- What a command does to a parser, other than to put a new one in its place. -/
inductive Effect (p : Parser) : Command → Answer → Parser → Prop
  | lexer {c : Command} (hc : c = .next ∨ c = .peek ∨ c = .drain) (a : Answer) (l : Lexer) :
    Effect p c a { p with lexer := l }
  | query {c : Command} (hc : c ∈ [.statements, .errors, .discardCopies, .hasErrors])
    (a : Answer) : Effect p c a p
  | move {c : Command} (hc : c = .advance ∨ c = .synchronize) (a : Answer) (d : Cursor) :
    Effect p c a (p.moved d)
  | part {c : Command} (hc : c = .statement ∨ ∃ k, c = .expression k) (a : Answer) {q : Parser}
    {ns : List Notice} (h : p.Adds [] ns q) : Effect p c a q
  | whole (a : Bool) {q : Parser} {bs : List Block} {ns : List Notice} (h : p.Adds bs ns q) :
    Effect p .program (.flag a) q
  | broken {e : LexicalError} {u q : Parser} {b : Option Block} {bs : List Block}
    (h : p.Completes bs u) (hb : u.BreaksOff b e q) : Effect p .program (.interrupted e) q

theorem exists_onLexer {α : Type} (m : EStateM LexicalError Lexer α) (answer : α → Answer)
    (p : Parser) : ∃ l, ((parsing p).onLexer m answer).2 = .parsing { p with lexer := l } := by
  unfold onLexer
  split <;> exact ⟨_, rfl⟩

theorem onParser_snd {α : Type} (m : Parse α) (answer : α → Answer) (p : Parser) :
    ((parsing p).onParser m answer).2 = .parsing (Parser.after (m p)) := by
  unfold onParser
  dsimp only
  split <;> rename_i h <;> rw [h] <;> rfl

/-- Every command has one of the effects. -/
theorem exists_effect (p : Parser) (hc : c ≠ .openParser) :
    ∃ q, ((parsing p).step c).2 = .parsing q ∧ Effect p c ((parsing p).step c).1 q := by
  have hnotes := Parser.compositional_notes
  cases c with
  | openParser => exact absurd rfl hc
  | next | peek | drain =>
    obtain ⟨l, hl⟩ := exists_onLexer _ _ p
    exact ⟨_, hl, .lexer (by simp) _ l⟩
  | statements | errors | discardCopies | hasErrors => exact ⟨p, rfl, .query (by simp) _⟩
  | advance =>
    obtain ⟨d, hd⟩ := Parser.exists_after_advance_eq_moved p
    exact ⟨_, (onParser_snd _ _ p).trans (by rw [hd]), .move (.inl rfl) _ d⟩
  | synchronize =>
    obtain ⟨d, hd⟩ := Parser.exists_after_advanceWhile_eq_moved _ _ p
    exact ⟨_, (onParser_snd _ _ p).trans (congrArg _ hd), .move (.inr rfl) _ d⟩
  | expression k =>
    obtain ⟨ns, hns⟩ := hnotes.expression k p
    exact ⟨_, onParser_snd _ _ p, .part (.inr ⟨k, rfl⟩) _ hns⟩
  | statement =>
    obtain ⟨ns, hns⟩ := hnotes.statement p
    exact ⟨_, onParser_snd _ _ p, .part (.inl rfl) _ hns⟩
  | program =>
    refine ⟨_, onParser_snd _ _ p, ?_⟩
    unfold step onParser
    dsimp only
    cases h : Parser.program p with
    | ok a q =>
      obtain ⟨u, hu, hq⟩ := Parser.program_eq_ok h
      obtain ⟨bs, hbs, -⟩ := Parser.completes_of_allStatements hu
      obtain ⟨ns, hns⟩ := hbs.exists_adds
      exact .whole a (hns.trans (Parser.adds_notify rfl hq))
    | error e q =>
      obtain ⟨bs, u, b, hbs, hb⟩ :=
        Parser.allStatements_eq_error_iff.1 (Parser.program_eq_error h)
      exact .broken hbs hb

namespace Effect
variable {a : Answer} {q : Parser}

theorem exists_adds (h : Effect p c a q) : ∃ bs ns, p.Adds bs ns q := by
  cases h with
  | lexer _ _ l => exact ⟨[], [], .of_moved p { p.cursor with lexer := l }⟩
  | query => exact ⟨[], [], .refl p⟩
  | move _ _ d => exact ⟨[], [], .of_moved p d⟩
  | part _ _ h => exact ⟨[], _, h⟩
  | whole _ h => exact ⟨_, _, h⟩
  | broken h hb =>
    obtain ⟨ns, hns⟩ := h.exists_adds
    obtain ⟨ms, hms⟩ := hb.exists_adds
    exact ⟨_, _, hns.trans hms⟩

theorem statements_eq (h : Effect p c a q) (hc : c ≠ .program) : q.statements = p.statements := by
  cases h with
  | lexer | query | move => rfl
  | part _ _ h => rw [h.statements, List.append_nil]
  | whole | broken => exact absurd rfl hc

theorem errors_eq (h : Effect p c a q) (hprogram : c ≠ .program) (hstatement : c ≠ .statement)
    (hexpression : ∀ k, c ≠ .expression k) : q.errors = p.errors := by
  cases h with
  | lexer | query | move => rfl
  | part hc =>
    rcases hc with hc | ⟨k, hc⟩
    · exact absurd hc hstatement
    · exact absurd hc (hexpression k)
  | whole | broken => exact absurd rfl hprogram

theorem eq_moved (h : Effect p c a q) (hc : c = .advance ∨ c = .synchronize) :
    q = p.moved q.cursor := by
  cases h with
  | lexer | query | move => rfl
  | part hc' => rcases hc with rfl | rfl <;> simp at hc'
  | whole | broken => simp at hc

theorem eq_withLexer (h : Effect p c a q) (hc : c = .next ∨ c = .peek ∨ c = .drain) :
    q = { p with lexer := q.lexer } := by
  cases h with
  | lexer | query => rfl
  | move hc' => rcases hc with rfl | rfl | rfl <;> simp at hc'
  | part hc' => rcases hc with rfl | rfl | rfl <;> simp at hc'
  | whole | broken => simp at hc

/-- The records of a program that is interrupted. -/
theorem exists_breaksOff {e : LexicalError} (h : Effect p .program (.interrupted e) q) :
    ∃ bs u b ns ms, p.Completes bs u ∧ u.BreaksOff b e q ∧ p.Adds bs ns u ∧
      u.Adds b.toList ms q := by
  cases h with
  | lexer hc | query hc | move hc | part hc => simp at hc
  | broken h hb =>
    obtain ⟨ns, hns⟩ := h.exists_adds
    obtain ⟨ms, hms⟩ := hb.exists_adds
    exact ⟨_, _, _, ns, ms, h, hb, hns, hms⟩

end Effect

/-- Commands that put no new parser on the lexer add to the records, one after the other. -/
theorem exists_adds_after (p : Parser) (cs : List Command) (hcs : .openParser ∉ cs) :
    ∃ q bs ns, (parsing p).after cs = .parsing q ∧ p.Adds bs ns q := by
  induction cs generalizing p with
  | nil => exact ⟨p, [], [], rfl, .refl p⟩
  | cons c cs ih =>
    obtain ⟨hc, hcs⟩ := not_or.1 (List.mem_cons.not.1 hcs)
    obtain ⟨q, hq, heffect⟩ := exists_effect p (Ne.symm hc)
    obtain ⟨bs, ns, hns⟩ := heffect.exists_adds
    obtain ⟨r, cs', ms, hr, hms⟩ := ih q hcs
    refine ⟨r, _, _, ?_, hns.trans hms⟩
    rw [← hr, ← hq]
    rfl

/-- Whatever the command, but for one that puts a new parser on the lexer, and whether or not it is
interrupted, the statements and the errors of the parser stay and others may follow. Statements
follow in a program alone, and errors there, in an expression and in a statement. To move on and to
recover changes the place of the parser, and a lexer command what is left for it. A program that is
interrupted has recorded the blocks of the turns that it has completed, with the one of the turn
that is broken off if that is found already, and all errors of which it has left a notice, in these
turns and in the one that is broken off. A run of such commands loses no more than one of them. -/
theorem records_grow (p : Parser) (c : Command) (hc : c ≠ .openParser) :
    (∃ q, ((parsing p).step c).2 = .parsing q ∧
      p.statements <+: q.statements ∧ p.errors <+: q.errors ∧
      (c ≠ .program → q.statements = p.statements) ∧
      (c ≠ .program → c ≠ .statement → (∀ k, c ≠ .expression k) → q.errors = p.errors) ∧
      (c = .advance ∨ c = .synchronize → q = p.moved q.cursor) ∧
      (c = .next ∨ c = .peek ∨ c = .drain → q = { p with lexer := q.lexer }) ∧
      ∀ e, c = .program → ((parsing p).step c).1 = .interrupted e →
        ∃ bs u b ns ms, p.Completes bs u ∧ u.BreaksOff b e q ∧
          p.Adds bs ns u ∧ u.Adds b.toList ms q) ∧
    ∀ cs, .openParser ∉ cs → ∃ q, (parsing p).after cs = .parsing q ∧
      p.statements <+: q.statements ∧ p.errors <+: q.errors := by
  constructor
  · obtain ⟨q, hq, heffect⟩ := exists_effect p hc
    obtain ⟨bs, ns, hns⟩ := heffect.exists_adds
    refine ⟨q, hq, hns.statements_prefix, hns.errors_prefix, heffect.statements_eq,
      heffect.errors_eq, heffect.eq_moved, heffect.eq_withLexer, fun e hprogram he => ?_⟩
    subst hprogram
    rw [he] at heffect
    exact heffect.exists_breaksOff
  · intro cs hcs
    obtain ⟨q, bs, ns, hq, hns⟩ := exists_adds_after p cs hcs
    exact ⟨q, hq, hns.statements_prefix, hns.errors_prefix⟩

/-- A block is recorded, and the next one is broken off behind two errors, which stay. -/
theorem records_grow_broken :
    let p : Parser :=
      { lexer := .start "x = 1\nvar y = ) 2 lib", current := ⟨.keyword .var, "var", .mk "" 1 1 0⟩
        next := ⟨.newline, "\n", .mk "" 1 4 3⟩ }
    Command.program ≠ .openParser ∧
      ∃ e q, (parsing p).step .program = (.interrupted e, .parsing q) ∧
      q.statements.length = 1 ∧ q.errors.map (·.kind) = [.expectedNewLine, .noPrefixFound] ∧
      ∃ bs u b ns ms, p.Completes bs u ∧ u.BreaksOff b e q ∧
        p.Adds bs ns u ∧ u.Adds b.toList ms q := by
  intro p
  have hanswer : ((parsing p).step .program).1 =
      .interrupted (.forbidden "lib" ⟨Location.unnamed, 2, 13, 18⟩) := by
    decide +kernel
  have hrecords : ((parsing p).step .program).2.parser?.map
      (fun q => (q.statements.length, q.errors.map (·.kind))) =
        some (1, [.expectedNewLine, .noPrefixFound]) := by
    decide +kernel
  obtain ⟨⟨q, hq, -, -, -, -, -, -, hbroken⟩, -⟩ := records_grow p .program (by decide)
  rw [hq] at hrecords
  obtain ⟨hlength, herrors⟩ := Prod.ext_iff.1 (Option.some.inj hrecords)
  exact ⟨by decide, _, q, Prod.ext hanswer hq, hlength, herrors, hbroken _ rfl hanswer⟩

end Session
end SLFront
