import SLFront.Proofs.Walk

/-!
# The tokens that lie ahead

The tokens of a source text end with the end of input, after which every further step stands still.
`Cursor.Upcoming` says which tokens lie ahead of a cursor, the current one included. A parser starts
in front of the tokens of its source text (`start_of_tokenize`), and whatever it reads is a part of
them, but for the end of input, which it may read again (`Upcoming.append_replicate`).

Every token starts behind the one before, so that no token occurs twice (`nodup_of_tokenize`).
-/
namespace SLFront

/-! ## Where scanning stands still -/

namespace Scanner
variable {s s' : Scanner} {t : Token}

theorem skipGap_of_nil (h : s.rest = []) : s.skipGap = s := by
  cases s
  cases h
  rfl

/-- At the end of the text a scan gives the end of input, and changes nothing if it is repeated. -/
theorem scan_of_endOfInput (h : s.scan = .ok t s') (ht : t.kind = .endOfInput) :
    s'.scan = .ok t s' := by
  unfold scan at h
  dsimp only at h
  split at h
  · rename_i hrest
    cases h
    unfold scan
    rw [skipGap_of_nil hrest]
    dsimp only
    rw [hrest]
  · rename_i c cs _
    split at h
    · rename_i hok
      cases h
      exact absurd ht (tokenOf_ne_endOfInput (Lexeme.kind_ne_endOfInput c cs) hok)
    · cases h

theorem location_of_tokenOf {lexeme : Lexeme} {location : Location}
    (h : tokenOf lexeme location = .ok t) : t.location = location := by
  unfold tokenOf at h
  dsimp only at h
  split at h
  · split at h <;> cases h
    rfl
  · cases h
    rfl

/-- A token starts where the scanner stands or behind it, and ends where the scanner stands then. -/
theorem offset_of_scan (h : s.scan = .ok t s') :
    s.offset ≤ t.location.offset ∧ (t.kind ≠ .endOfInput → t.location.offset < s'.offset) := by
  unfold scan at h
  dsimp only at h
  split at h
  · cases h
    constructor
    · simp only [location, skipGap]
      omega
    · exact fun hne => absurd rfl hne
  · rename_i c cs _
    split at h
    · rename_i hok
      cases h
      have hpos := List.length_pos_iff.2 (Lexeme.chars_ne_nil c cs)
      rw [location_of_tokenOf hok]
      constructor
      · simp only [location, skipGap]
        omega
      · intro _
        unfold skipLexeme
        dsimp only
        split <;> simp only [location] <;> omega
    · cases h

end Scanner

namespace Lexer
variable {l l' : Lexer} {t : Token}

theorem next_of_endOfInput (hp : l.peeked = none) (h : l.next = .ok t l')
    (ht : t.kind = .endOfInput) : l'.next = .ok t l' := by
  unfold next at h ⊢
  rw [hp] at h
  dsimp only at h
  split at h
  · rename_i s hs
    cases h
    dsimp only
    rw [Scanner.scan_of_endOfInput hs ht]
  · cases h

theorem peeked_of_next (h : l.next = .ok t l') : l'.peeked = none := by
  unfold next at h
  split at h
  · cases h
    rfl
  · rename_i hp
    split at h
    · cases h
      exact hp
    · cases h

end Lexer

/-! ## Tokens ahead of a cursor -/

namespace Cursor
variable {c d : Cursor} {ts us : List Token}

theorem step?_of_next {l l' : Lexer} {x t u : Token} (h : l.next = .ok u l') :
    step? ⟨l, x, t⟩ = some ⟨l', t, u⟩ := by
  unfold step?
  dsimp only
  rw [h]

/-- The tokens from the current one to the end of input, at which the cursor stands still. -/
inductive Upcoming : Cursor → List Token → Prop
  | last {c : Cursor} (hc : c.current.kind = .endOfInput) (hn : c.next = c.current)
    (hs : c.step? = some c) : Upcoming c [c.current]
  | cons {c d : Cursor} {ts : List Token} (hc : c.current.kind ≠ .endOfInput)
    (hs : c.step? = some d) (rest : Upcoming d ts) : Upcoming c (c.current :: ts)

/-- From where the cursor stands still, reading leads nowhere. -/
theorem Reads.of_fixed (h : c.Reads us d) (hs : c.step? = some c) :
    d = c ∧ us = List.replicate us.length c.next := by
  induction h with
  | refl c => exact ⟨rfl, rfl⟩
  | step hs' _ ih =>
    obtain rfl := Option.some.inj (hs'.symm.trans hs)
    obtain ⟨hd, hus⟩ := ih hs
    refine ⟨hd, ?_⟩
    rw [List.length_cons, List.replicate_succ, ← hus]

namespace Upcoming

/-- Reading stops nowhere. -/
theorem of_reads (h : c.Upcoming ts) (hd : c.Reads us d) : ∃ vs, d.Upcoming vs := by
  induction hd generalizing ts with
  | refl c => exact ⟨ts, h⟩
  | step hs _ ih =>
    cases h with
    | last hc hn hs' =>
      obtain rfl := Option.some.inj (hs'.symm.trans hs)
      exact ih (.last hc hn hs')
    | cons _ hs' rest =>
      obtain rfl := Option.some.inj (hs'.symm.trans hs)
      exact ih rest

theorem clean (h : c.Upcoming ts) : c.Clean := by
  intro us d hd
  obtain ⟨vs, hvs⟩ := h.of_reads hd
  cases hvs with
  | last _ _ hs => simp [hs]
  | cons _ hs _ => simp [hs]

/-- All tokens that lie ahead can be read. -/
theorem exists_reads (h : c.Upcoming ts) :
    ∃ us d, ts = c.current :: us ∧ c.Reads us d ∧ d.current.kind = .endOfInput ∧
      d.next = d.current := by
  induction h with
  | @last c hc hn hs => exact ⟨[], c, rfl, .refl c, hc, hn⟩
  | cons _ hs _ ih =>
    obtain ⟨us, d, rfl, hd, hend⟩ := ih
    rw [current_of_step hs]
    exact ⟨_, d, rfl, .step hs hd, hend⟩

theorem exists_cons (h : c.Upcoming ts) : ∃ us, ts = c.current :: us := by
  cases h <;> exact ⟨_, rfl⟩

/-- Behind tokens other than the end of input there lies what lay behind them before. -/
theorem split (h : c.Upcoming ts) (hd : c.Reads us d)
    (hus : ∀ x ∈ (c.current :: us).dropLast, x.kind ≠ .endOfInput) :
    ∃ vs, d.Upcoming vs ∧ ts = (c.current :: us).dropLast ++ vs := by
  induction hd generalizing ts with
  | refl c => exact ⟨ts, h, rfl⟩
  | @step c d e us hs _ ih =>
    obtain ⟨hc, hus⟩ := List.forall_mem_cons.1 hus
    cases h with
    | last hend => exact absurd hend hc
    | cons _ hs' rest =>
      obtain rfl := Option.some.inj (hs'.symm.trans hs)
      rw [← current_of_step hs] at hus ⊢
      obtain ⟨vs, hvs, rfl⟩ := ih rest hus
      exact ⟨vs, hvs, rfl⟩

/-- One step behind tokens other than the end of input there lies what lay behind them before. -/
theorem split_step {e : Cursor} (h : c.Upcoming ts) (hd : c.Reads us d) (hs : d.step? = some e)
    (hus : ∀ x ∈ c.current :: us, x.kind ≠ .endOfInput) :
    ∃ vs, e.Upcoming vs ∧ ts = c.current :: us ++ vs := by
  have hsplit := h.split (hd.append (.single hs))
  rw [← List.cons_append, List.dropLast_concat] at hsplit
  exact hsplit hus

/-- What is read up to the end of input is what lies ahead, and perhaps more ends of input. -/
theorem append_replicate (h : c.Upcoming ts) (hd : c.Reads us d)
    (hend : d.current.kind = .endOfInput) :
    ∃ n, c.current :: us = ts ++ List.replicate n d.current := by
  induction h generalizing us with
  | @last c hc hn hs =>
    obtain ⟨rfl, hus⟩ := hd.of_fixed hs
    refine ⟨us.length, ?_⟩
    rw [← hn, ← hus]
    rfl
  | cons hc hs _ ih =>
    cases hd with
    | refl => exact absurd hend hc
    | step hs' hrest =>
      obtain rfl := Option.some.inj (hs'.symm.trans hs)
      obtain ⟨n, hn⟩ := ih hrest
      refine ⟨n, ?_⟩
      rw [List.cons_append, ← hn, current_of_step hs]

/-- What is read up to the first end of input is what lies ahead. -/
theorem eq_cons (h : c.Upcoming ts) (hd : c.Reads us d) (hend : d.current.kind = .endOfInput)
    (hus : ∀ x ∈ (c.current :: us).dropLast, x.kind ≠ .endOfInput) : ts = c.current :: us := by
  obtain ⟨n, hn⟩ := h.append_replicate hd hend
  cases n with
  | zero => simpa using hn.symm
  | succ n =>
    -- Then the end of input that ends `ts` is not the last token that was read.
    obtain ⟨vs, e, rfl, hvs, he, -⟩ := h.exists_reads
    refine absurd he (hus _ ?_)
    rw [hn, List.replicate_succ', ← List.append_assoc, List.dropLast_concat]
    exact List.mem_append_left _ (hvs.current_eq ▸ List.getLast_mem _)

end Upcoming

end Cursor

/-! ## Draining a lexer, one token after the other -/

namespace Lexer
variable {l l' l'' : Lexer} {s : Scanner} {t : Token} {ts : List Token} {e : LexicalError}

theorem next_of_scan (hp : l.peeked = none) (h : l.scanner.scan = .ok t s) :
    l.next = .ok t { l with scanner := s } := by
  unfold next
  rw [hp]
  dsimp only
  rw [h]

theorem next_of_scan_error (hp : l.peeked = none) (h : l.scanner.scan = .error e s) :
    l.next = .error e { l with scanner := s } := by
  unfold next
  rw [hp]
  dsimp only
  rw [h]

theorem drain_of_endOfInput (h : l.next = .ok t l') (ht : t.kind = .endOfInput) :
    l.drain = .ok [t] l' := by
  rw [drain]
  split
  · rename_i h'
    cases h.symm.trans h'
  · rename_i h'
    cases h.symm.trans h'
    rw [dif_pos ht]

theorem drain_of_next (h : l.next = .ok t l') (ht : t.kind ≠ .endOfInput)
    (hts : l'.drain = .ok ts l'') : l.drain = .ok (t :: ts) l'' := by
  rw [drain]
  split
  · rename_i h'
    cases h.symm.trans h'
  · rename_i h'
    cases h.symm.trans h'
    rw [dif_neg ht, hts]

theorem drain_of_error (h : l.next = .error e l') : l.drain = .error e l' := by
  rw [drain]
  split
  · rename_i h'
    cases h.symm.trans h'
    rfl
  · rename_i h'
    cases h.symm.trans h'

theorem drain_of_next_error (h : l.next = .ok t l') (ht : t.kind ≠ .endOfInput)
    (he : l'.drain = .error e l'') : l.drain = .error e l'' := by
  rw [drain]
  split
  · rename_i h'
    cases h.symm.trans h'
  · rename_i h'
    cases h.symm.trans h'
    rw [dif_neg ht, he]

end Lexer

/-! ## Tokens of a source text -/

section
variable {source filename : String} {ts : List Token} {l l₁ l₂ l' : Lexer} {t u : Token}

/-- The tokens that a lexer gives are the next one and those that come after it. -/
theorem Lexer.drain_eq_ok (h : l.drain = .ok ts l') :
    ∃ t l₁, l.next = .ok t l₁ ∧ (t.kind = .endOfInput ∧ ts = [t] ∨
      t.kind ≠ .endOfInput ∧ ∃ us, l₁.drain = .ok us l' ∧ ts = t :: us) := by
  rw [drain] at h
  split at h
  · cases h
  · rename_i t l₁ ht
    refine ⟨t, l₁, ht, ?_⟩
    split at h
    · rename_i hend
      cases h
      exact .inl ⟨hend, rfl⟩
    · rename_i hend
      split at h
      · rename_i us l₂ hus
        cases h
        exact .inr ⟨hend, us, hus, rfl⟩
      · cases h

/-- The tokens that a lexer gives lie ahead of a cursor that has taken the first one. -/
theorem Lexer.upcoming_of_drain (hp : l.peeked = none) (h : l.drain = .ok ts l')
    (hn : l.next = .ok t l₁) {x : Token} (hx : x.kind ≠ .endOfInput) :
    Cursor.Upcoming ⟨l₁, x, t⟩ (x :: ts) := by
  fun_induction drain l generalizing ts l' l₁ t x with
  | case1 l e l₂ hl => cases h
  | case2 l u l₂ hl hu =>
    cases h
    cases hl.symm.trans hn
    have hfix := Lexer.next_of_endOfInput hp hn hu
    exact .cons hx (Cursor.step?_of_next hfix) (.last hu rfl (Cursor.step?_of_next hfix))
  | case3 l u l₂ hl hu _ us l₃ hus ih =>
    cases h
    cases hl.symm.trans hn
    obtain ⟨v, l₄, hv, -⟩ := drain_eq_ok hus
    exact .cons hx (Cursor.step?_of_next hv) (ih (peeked_of_next hl) hus hv hu)
  | case4 => cases h

theorem Parser.start_eq (h : l.next = .ok t l₁) (h' : l₁.next = .ok u l₂) :
    Parser.start l = .ok { lexer := l₂, current := t, next := u } l₂ := by
  unfold Parser.start
  simp only [bind, EStateM.bind, h, h']
  rfl

theorem Parser.start_eq_error_iff {l l' : Lexer} {e : LexicalError} :
    Parser.start l = .error e l' ↔ l.next = .error e l' ∨
      ∃ t l₁, l.next = .ok t l₁ ∧ l₁.next = .error e l' := by
  cases h : l.next with
  | error => simp [Parser.start, bind, EStateM.bind, h]
  | ok t l₁ =>
    cases h' : l₁.next with
    | error => simp [Parser.start, bind, EStateM.bind, h, h']
    | ok => simp [Parser.start_eq h h', h']

/-- A parser starts with the first two tokens that its lexer gives. -/
theorem Parser.start_eq_ok {l l' : Lexer} {p : Parser} (h : Parser.start l = .ok p l') :
    ∃ t l₁ u, l.next = .ok t l₁ ∧ l₁.next = .ok u l' ∧
      p = { lexer := l', current := t, next := u } := by
  cases h₁ : l.next with
  | error => cases h.symm.trans (start_eq_error_iff.2 (.inl h₁))
  | ok t l₁ =>
    cases h₂ : l₁.next with
    | error => cases h.symm.trans (start_eq_error_iff.2 (.inr ⟨t, l₁, h₁, h₂⟩))
    | ok u l₂ =>
      cases h.symm.trans (start_eq h₁ h₂)
      exact ⟨t, l₁, u, rfl, h₂, rfl⟩

theorem exists_tokens (h : (tokenize source filename).toOption.isSome) :
    ∃ ts, tokenize source filename = .ok ts := by
  cases hts : tokenize source filename with
  | ok ts => exact ⟨ts, rfl⟩
  | error e =>
    rw [hts] at h
    cases h

/-- A parser starts in front of the tokens that the lexer gives. -/
theorem start_of_drain (hp : l.peeked = none) (h : l.drain = .ok ts l') :
    ∃ s l₁, Parser.start l = .ok s l₁ ∧ s.cursor.Upcoming ts ∧
      s.statements = [] ∧ s.errors = [] ∧ s.notices = [] := by
  obtain ⟨t, l₁, ht, hts⟩ := Lexer.drain_eq_ok h
  rcases hts with ⟨hend, rfl⟩ | ⟨hend, us, hus, rfl⟩
  · have hfix := Lexer.next_of_endOfInput hp ht hend
    have hlast := Cursor.Upcoming.last hend rfl (Cursor.step?_of_next hfix)
    exact ⟨_, _, Parser.start_eq ht hfix, hlast, rfl, rfl, rfl⟩
  · obtain ⟨u, l₂, hu, -⟩ := Lexer.drain_eq_ok hus
    have hrest := Lexer.upcoming_of_drain (Lexer.peeked_of_next ht) hus hu hend
    exact ⟨_, _, Parser.start_eq ht hu, hrest, rfl, rfl, rfl⟩

/-- A parser of a source text starts in front of its tokens. -/
theorem start_of_tokenize (h : tokenize source filename = .ok ts) :
    ∃ s l, Parser.start (.start source filename) = .ok s l ∧ s.cursor.Upcoming ts ∧
      s.statements = [] ∧ s.errors = [] ∧ s.notices = [] := by
  unfold tokenize at h
  split at h
  · rename_i hdrain
    cases h
    exact start_of_drain rfl hdrain
  · cases h

/-- The last token of a source text is the end of input. -/
theorem exists_endOfInput (h : tokenize source filename = .ok ts) :
    ∃ us e, ts = us ++ [e] ∧ e.kind = .endOfInput := by
  obtain ⟨s, _, -, hupcoming, -⟩ := start_of_tokenize h
  obtain ⟨us, d, rfl, hd, hend, -⟩ := hupcoming.exists_reads
  exact ⟨_, _, hd.dropLast_append.symm, hend⟩

/-! ## Parsing what a lexer has left -/

/-- The statements and the syntax errors of the tokens that a lexer has left. -/
def Lexer.parse (l : Lexer) : Except LexicalError (List Block × List SyntaxError) :=
  match Parser.start l with
  | .error e _ => .error e
  | .ok s _ =>
    match s.program with
    | .error e _ => .error e
    | .ok _ t => .ok (t.statements, t.errors)

/-- To parse a source text is to parse what a lexer at its start has left. -/
theorem parse_eq (source filename : String) :
    parse source filename = (Lexer.start source filename).parse := by
  unfold parse Parser.run Lexer.parse
  cases Parser.start (.start source filename) with
  | error e l => rfl
  | ok s l =>
    dsimp only
    cases s.program <;> rfl

theorem Lexer.parse_of_start_error {e : LexicalError} (h : Parser.start l = .error e l') :
    l.parse = .error e := by
  unfold parse
  rw [h]

theorem Lexer.parse_of_program_error {s s' : Parser} {e : LexicalError}
    (h : Parser.start l = .ok s l') (he : s.program = .error e s') : l.parse = .error e := by
  unfold parse
  rw [h]
  dsimp only
  rw [he]

theorem Lexer.parse_of_allStatements {s s' : Parser} (h : Parser.start l = .ok s l')
    (hs : s.allStatements = .ok () s') : l.parse = .ok (s'.statements, s'.errors) := by
  have hprogram : s.program = .ok s'.hasErrors
      { s' with notices := s'.notices ++ [.finished s'.statements.length s'.errors.length] } :=
    Parser.bind_of_ok hs
  unfold parse
  rw [h]
  dsimp only
  rw [hprogram]

/-! ## Places in the source text -/

theorem Lexer.scan_of_next (hp : l.peeked = none) (h : l.next = .ok t l') :
    l.scanner.scan = .ok t l'.scanner := by
  unfold next at h
  rw [hp] at h
  dsimp only at h
  split at h
  · rename_i hs
    cases h
    exact hs
  · cases h

/-- Every token starts behind the one before. -/
theorem Lexer.pairwise_of_drain (hp : l.peeked = none) (h : l.drain = .ok ts l') :
    (∀ t ∈ ts, l.scanner.offset ≤ t.location.offset) ∧
      ts.Pairwise (fun t u => t.location.offset < u.location.offset) := by
  induction hn : l.remaining using Nat.strongRecOn generalizing l ts with
  | _ n ih =>
    subst hn
    obtain ⟨t, l₁, ht, ⟨hend, rfl⟩ | ⟨hend, us, hus, rfl⟩⟩ := drain_eq_ok h
    · simpa using (Scanner.offset_of_scan (scan_of_next hp ht)).1
    · obtain ⟨hle, hlt⟩ := Scanner.offset_of_scan (scan_of_next hp ht)
      have hremaining := remaining_of_next_eq_ok ht
      rw [Token.weight_eq_one hend] at hremaining
      obtain ⟨hall, hpairwise⟩ := ih _ (by omega) (peeked_of_next ht) hus rfl
      have hbehind : ∀ u ∈ us, t.location.offset < u.location.offset :=
        fun u hu => Int.lt_of_lt_of_le (hlt hend) (hall u hu)
      refine ⟨List.forall_mem_cons.2 ⟨hle, fun u hu => ?_⟩, .cons hbehind hpairwise⟩
      exact Int.le_trans hle (Int.le_of_lt (hbehind u hu))

/-- Every token of a source text starts behind the one before. -/
theorem pairwise_of_tokenize (h : tokenize source filename = .ok ts) :
    ts.Pairwise (fun t u => t.location.offset < u.location.offset) := by
  unfold tokenize at h
  split at h
  · rename_i us l' hdrain
    cases h
    exact (Lexer.pairwise_of_drain rfl hdrain).2
  · cases h

/-- No token of a source text occurs twice in it. -/
theorem nodup_of_tokenize (h : tokenize source filename = .ok ts) : ts.Nodup := by
  refine (pairwise_of_tokenize h).imp fun hlt heq => ?_
  rw [heq] at hlt
  exact Int.lt_irrefl _ hlt

end
end SLFront
