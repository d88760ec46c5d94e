import Mathlib.Data.List.Destutter
import SLFront.Proofs.Decomposition
import SLFront.Proofs.SideBySide

/-!
# Gaps and blank lines do not matter

What a program means is in its tokens without their places, and a run of line breaks says no more
than its first one (`squeeze`). Two source texts whose tokens are the same up to that have the same
statements and the same errors, but for the places (`parse_of_squeeze`). So gaps can be changed
anywhere between lexemes, and blank lines and lines with comments alone can be put in front of any
line, in texts with errors too.
-/
namespace SLFront

/-- The tokens are not both line breaks. -/
def Token.Differs (t u : Token) : Prop := t.kind ≠ .newline ∨ u.kind ≠ .newline

instance : DecidableRel Token.Differs := fun _ _ => inferInstanceAs (Decidable (_ ∨ _))

/-- The tokens with each run of line breaks cut down to its first one. -/
def squeeze (ts : List Token) : List Token := ts.destutter Token.Differs

/-- The lexeme as a token without a place. -/
def Occurrence.token (o : Occurrence) : Token := ⟨o.kind, String.ofList o.chars, default⟩

/-- The lexeme of a piece as a token without a place. -/
def Piece.token (p : Piece) : Token := ⟨p.kind, String.ofList p.chars, default⟩

/-! ## Squeezed tokens -/

section
variable {t u : Token} {ts us : List Token}

theorem squeeze_cons_of_ne (ht : t.kind ≠ .newline) : squeeze (t :: ts) = t :: squeeze ts := by
  cases ts with
  | nil => rfl
  | cons u us =>
    have hkept : t.Differs u := .inl ht
    exact List.destutter'_cons_pos _ hkept

/-- Of a line break and those behind it the first one stays. -/
theorem exists_squeeze_cons_of_newline (ht : t.kind = .newline) (ts : List Token) :
    ∃ bs us, ts = bs ++ us ∧ (∀ b ∈ bs, b.kind = .newline) ∧
      squeeze (t :: ts) = t :: squeeze us := by
  induction ts with
  | nil => exact ⟨[], [], rfl, by simp, rfl⟩
  | cons u us ih =>
    by_cases hu : u.kind = .newline
    · have hdropped : ¬t.Differs u := by simp [Token.Differs, ht, hu]
      obtain ⟨bs, vs, rfl, hbs, hsqueeze⟩ := ih
      refine ⟨u :: bs, vs, rfl, List.forall_mem_cons.2 ⟨hu, hbs⟩, ?_⟩
      rw [← hsqueeze]
      exact List.destutter'_cons_neg _ hdropped
    · have hkept : t.Differs u := .inr hu
      exact ⟨[], u :: us, rfl, by simp, List.destutter'_cons_pos _ hkept⟩

theorem exists_squeeze_cons (t : Token) (ts : List Token) : ∃ us, squeeze (t :: ts) = t :: us := by
  by_cases ht : t.kind = .newline
  · obtain ⟨bs, us, -, -, h⟩ := exists_squeeze_cons_of_newline ht ts
    exact ⟨_, h⟩
  · exact ⟨_, squeeze_cons_of_ne ht⟩

/-- A token other than a line break is never cut off. -/
theorem squeeze_concat (ht : t.kind ≠ .newline) : squeeze (ts ++ [t]) = squeeze ts ++ [t] := by
  have hconcat : ∀ (us : List Token) (u : Token),
      (us ++ [t]).destutter' Token.Differs u = us.destutter' Token.Differs u ++ [t] := by
    intro us
    induction us with
    | nil =>
      intro u
      have hkept : u.Differs t := .inr ht
      exact List.destutter'_cons_pos _ hkept
    | cons v vs ih =>
      intro u
      rw [List.cons_append]
      by_cases huv : u.Differs v
      · rw [List.destutter'_cons_pos _ huv, List.destutter'_cons_pos _ huv, ih, List.cons_append]
      · rw [List.destutter'_cons_neg _ huv, List.destutter'_cons_neg _ huv, ih]
  cases ts with
  | nil => rfl
  | cons u us => exact hconcat us u

theorem dropWhile_concat (ht : t.kind ≠ .newline) :
    (ts ++ [t]).dropWhile Token.isLineBreak = ts.dropWhile Token.isLineBreak ++ [t] := by
  have hstop : ¬t.isLineBreak := by simpa [Token.isLineBreak] using ht
  rw [List.dropWhile_append, List.dropWhile_cons_of_neg hstop]
  split
  · rename_i h
    rw [List.isEmpty_iff.1 h, List.nil_append]
  · rfl

theorem map_unplaced_squeeze :
    (squeeze ts).map Token.unplaced = squeeze (ts.map Token.unplaced) :=
  List.map_destutter fun _ _ _ _ => Iff.rfl

end

/-! ## Texts with the same squeezed tokens -/

theorem Cursor.Upcoming.of_append {c : Cursor} {ts us : List Token} (h : c.Upcoming (ts ++ us))
    (hts : ∀ t ∈ ts, t.kind = .newline) : ∃ d : Cursor, d.Upcoming us := by
  induction ts generalizing c with
  | nil => exact ⟨c, h⟩
  | cons t ts ih =>
    obtain ⟨ht, hts⟩ := List.forall_mem_cons.1 hts
    obtain ⟨d, -, hd⟩ := h.ahead (by simp [ht])
    exact ih hd hts

namespace Comparison
variable {C : Comparison} {ts ts' : List Token} {c c' : Cursor}

/-- Tokens that are the same without their places and without repeated line breaks are beside each
other. -/
theorem beside_of_squeeze (halike : ∀ t t', t.unplaced = t'.unplaced → C.alike t t')
    (hts : c.Upcoming ts) (hts' : c'.Upcoming ts')
    (h : (squeeze ts).map Token.unplaced = (squeeze ts').map Token.unplaced) : C.Beside ts ts' := by
  induction hn : ts.length using Nat.strongRecOn generalizing ts ts' c c' with
  | _ n ih =>
    subst hn
    obtain ⟨us, rfl⟩ := hts.exists_cons
    obtain ⟨us', rfl⟩ := hts'.exists_cons
    generalize c.current = t at *
    generalize c'.current = t' at *
    have hhead : t.unplaced = t'.unplaced := by
      obtain ⟨vs, hvs⟩ := exists_squeeze_cons t us
      obtain ⟨vs', hvs'⟩ := exists_squeeze_cons t' us'
      rw [hvs, hvs', List.map_cons, List.map_cons] at h
      exact (List.cons.inj h).1
    have hkind : t'.kind = t.kind := Token.kind_eq_of_unplaced hhead.symm
    by_cases hn : t.kind = .newline
    · have hn' : t'.kind = .newline := hkind.trans hn
      obtain ⟨bs, vs, rfl, hbs, hvs⟩ := exists_squeeze_cons_of_newline hn us
      obtain ⟨bs', vs', rfl, hbs', hvs'⟩ := exists_squeeze_cons_of_newline hn' us'
      rw [hvs, hvs'] at h
      have hbreaks : ∀ b ∈ t :: bs, b.kind = .newline := List.forall_mem_cons.2 ⟨hn, hbs⟩
      have hbreaks' : ∀ b ∈ t' :: bs', b.kind = .newline := List.forall_mem_cons.2 ⟨hn', hbs'⟩
      rw [← List.cons_append] at hts hts'
      obtain ⟨d, hd⟩ := hts.of_append hbreaks
      obtain ⟨d', hd'⟩ := hts'.of_append hbreaks'
      exact .breaks (halike _ _ hhead) hbreaks hbreaks'
        (ih _ (by simp only [List.length_cons, List.length_append]; omega) hd hd'
          (List.cons.inj h).2 rfl)
    · have hn' : t'.kind ≠ .newline := by rwa [hkind]
      rw [squeeze_cons_of_ne hn, squeeze_cons_of_ne hn'] at h
      have hrest := (List.cons.inj h).2
      by_cases he : t.kind = .endOfInput
      · obtain ⟨rfl, -⟩ := hts.ahead_self he
        obtain ⟨rfl, -⟩ := hts'.ahead_self (hkind.trans he)
        exact .ended (halike _ _ hhead) he
      · obtain ⟨d, -, hd⟩ := hts.ahead he
        obtain ⟨d', -, hd'⟩ := hts'.ahead (by rwa [hkind])
        exact .token (halike _ _ hhead) hn (ih _ (by simp) hd hd' hrest rfl)

end Comparison

/-! ## Gaps -/

section
variable {source filename : String} {ts : List Token} {ps : List Piece} {lastGap : List Char}

theorem Token.token_occurrence (t : Token) : t.occurrence.token = t.unplaced := by
  rw [occurrence, Occurrence.token, String.ofList_toList]
  rfl

theorem Piece.map_token_occurrences (offset : Nat) :
    (occurrences offset ps).map Occurrence.token = ps.map Piece.token := by
  induction ps generalizing offset with
  | nil => rfl
  | cons p ps ih =>
    rw [occurrences, List.map_cons, List.map_cons, ih]
    rfl

/-- Without their places the tokens of a text are its lexemes, and the end of input. -/
theorem map_unplaced_of_isDecomposition (h : tokenize source filename = .ok ts)
    (hps : IsDecomposition source.toList ps lastGap) :
    ts.map Token.unplaced = ps.map Piece.token ++ [⟨.endOfInput, "", default⟩] := by
  have hdrain := Lexer.drain_of_isDecomposition hps (l := .start source filename) rfl rfl
  unfold tokenize at h
  split at hdrain
  · obtain ⟨us, l', hus, hoccurrences⟩ := hdrain
    rw [hus] at h
    cases h
    have htokens := congrArg (List.map Occurrence.token) hoccurrences
    rw [List.map_map, List.map_append, Piece.map_token_occurrences] at htokens
    rw [← funext Token.token_occurrence]
    exact htokens
  · obtain ⟨place, l', he, -⟩ := hdrain
    rw [he] at h
    cases h

end

/-- The tokens are the same but for their places and the lengths of runs of line breaks; or else the
lexemes of the texts are, whatever the gaps between them, and but for line breaks in front. -/
def SameLines (source source' : String) (ts ts' : List Token) : Prop :=
  squeeze (ts.map Token.unplaced) = squeeze (ts'.map Token.unplaced) ∨
    ∃ ps lastGap ps' lastGap', IsDecomposition source.toList ps lastGap ∧
      IsDecomposition source'.toList ps' lastGap' ∧
      squeeze ((ps.map Piece.token).dropWhile Token.isLineBreak) =
        squeeze ((ps'.map Piece.token).dropWhile Token.isLineBreak)

/-- Two source texts have the same statements and the same errors, but for the places of the tokens,
if their tokens are the same but for the places and the lengths of runs of line breaks; and so if
their lexemes are, whatever the gaps between them. -/
theorem parse_of_squeeze {source source' filename filename' : String} {ts ts' : List Token}
    (h : tokenize source filename = .ok ts) (h' : tokenize source' filename' = .ok ts')
    (hsame : SameLines source source' ts ts') :
    ∃ bs es bs' es', parse source filename = .ok (bs, es) ∧
      parse source' filename' = .ok (bs', es') ∧
      bs.map (Block.mapTokens Token.unplaced) = bs'.map (Block.mapTokens Token.unplaced) ∧
      es.map (SyntaxError.mapToken Token.unplaced) =
        es'.map (SyntaxError.mapToken Token.unplaced) ∧
      es.map SyntaxError.message = es'.map SyntaxError.message ∧
      es.map SyntaxError.help = es'.map SyntaxError.help ∧
      es.map SyntaxError.suggestions = es'.map SyntaxError.suggestions := by
  obtain ⟨s, t, -, hs, herrors, hstatements, ht, -, hparse⟩ := exists_run_of_tokenize h
  obtain ⟨s', t', -, hs', herrors', hstatements', ht', -, hparse'⟩ := exists_run_of_tokenize h'
  obtain ⟨d, hskip, hd⟩ := Parser.exists_skip hs
  obtain ⟨d', hskip', hd'⟩ := Parser.exists_skip hs'
  rw [hskip] at ht
  rw [hskip'] at ht'
  let C : Comparison :=
    { alike := fun t t' => t.unplaced = t'.unplaced
      kind_eq := fun h => Token.kind_eq_of_unplaced h.symm
      first := s
      second := s' }
  have hbeside : C.Beside (ts.dropWhile Token.isLineBreak) (ts'.dropWhile Token.isLineBreak) := by
    rcases hsame with hsame | ⟨ps, lastGap, ps', lastGap', hps, hps', hsame⟩
    · have hall : C.Beside ts ts' := by
        refine Comparison.beside_of_squeeze (fun _ _ h => h) hs hs' ?_
        rwa [map_unplaced_squeeze, map_unplaced_squeeze]
      exact hall.dropNewlines
    · refine Comparison.beside_of_squeeze (fun _ _ h => h) hd hd' ?_
      have hmap : ∀ ts : List Token, (ts.dropWhile Token.isLineBreak).map Token.unplaced =
          (ts.map Token.unplaced).dropWhile Token.isLineBreak := fun _ =>
        (List.dropWhile_map (p := Token.isLineBreak) (f := Token.unplaced)).symm
      rw [map_unplaced_squeeze, map_unplaced_squeeze, hmap, hmap,
        map_unplaced_of_isDecomposition h hps, map_unplaced_of_isDecomposition h' hps',
        dropWhile_concat (by simp), dropWhile_concat (by simp), squeeze_concat (by simp),
        squeeze_concat (by simp), hsame]
  have heven : C.Even (s.moved d) (s'.moved d') :=
    ⟨⟨C.recorded_start.statements, C.recorded_start.errors⟩, _, _, hd, hd', hbeside⟩
  obtain ⟨u, hu, hrecorded⟩ := heven.exists_allStatements ht rfl
  cases ht'.symm.trans hu
  obtain ⟨bs, bs', es, es', hbs, hes, hbs', hes', hblocks, hmap⟩ :=
    hrecorded.map_eq (fun _ _ h => h) fun _ _ h => Token.lexeme_eq_of_unplaced h
  have hsays : ∀ {α : Type} {f : SyntaxError → α}, (∀ e, f (e.mapToken Token.unplaced) = f e) →
      es.map f = es'.map f := by
    intro α f hf
    have h := congrArg (List.map f) hmap
    rwa [List.map_map, List.map_map, funext (f := f ∘ _) hf] at h
  refine ⟨bs, es, bs', es', ?_, ?_, hblocks, hmap, hsays fun _ => rfl, hsays fun _ => rfl,
    hsays fun _ => rfl⟩
  · rw [hparse, hbs, hes, hstatements, herrors]
    rfl
  · rw [hparse', hbs', hes', hstatements', herrors']
    rfl

theorem parse_of_squeeze_unclosed_group :
    let source := "var\n x = (1 +\n2\n y 3\n"
    let source' := "var \r\n\n\tx=( 1+ // plus\n\n 2\n\n  // second\n y 3 // end\n\n"
    ∃ ts ts' bs es bs' es', tokenize source = .ok ts ∧ tokenize source' = .ok ts' ∧
      squeeze (ts.map Token.unplaced) = squeeze (ts'.map Token.unplaced) ∧
      ts.length < ts'.length ∧ parse source = .ok (bs, es) ∧ parse source' = .ok (bs', es') ∧
      es.map SyntaxError.kind = [.expectedClosingParen] ∧
      bs.map (Block.mapTokens Token.unplaced) = bs'.map (Block.mapTokens Token.unplaced) ∧
      es.map SyntaxError.message = es'.map SyntaxError.message := by
  intro source source'
  obtain ⟨ts, hts⟩ : ∃ ts, tokenize source = .ok ts := exists_tokens (by decide +kernel)
  obtain ⟨ts', hts'⟩ : ∃ ts', tokenize source' = .ok ts' := exists_tokens (by decide +kernel)
  have hsqueeze : (tokenize source).toOption.map (fun ts => squeeze (ts.map Token.unplaced)) =
      (tokenize source').toOption.map (fun ts => squeeze (ts.map Token.unplaced)) := by
    decide +kernel
  have hlength : (tokenize source).toOption.map List.length = some 14 ∧
      (tokenize source').toOption.map List.length = some 19 := by
    decide +kernel
  have hkinds : (parse source).toOption.map (fun r => r.2.map SyntaxError.kind) =
      some [.expectedClosingParen] := by
    decide +kernel
  rw [hts, hts'] at hsqueeze hlength
  have hsame : squeeze (ts.map Token.unplaced) = squeeze (ts'.map Token.unplaced) :=
    Option.some.inj hsqueeze
  obtain ⟨bs, es, bs', es', hparse, hparse', hblocks, -, hmessages, -⟩ :=
    parse_of_squeeze hts hts' (.inl hsame)
  rw [hparse] at hkinds
  have hlt : ts.length < ts'.length := by
    rw [Option.some.inj hlength.1, Option.some.inj hlength.2]
    decide
  exact ⟨ts, ts', bs, es, bs', es', hts, hts', hsame, hlt, hparse, hparse',
    Option.some.inj hkinds, hblocks, hmessages⟩

end SLFront
