import Mathlib.Data.List.Basic
import SLFront.Proofs.Places
import SLFront.Proofs.SideBySide

/-!
# Letter case

Reserved words are recognised in any letter case, and where the parts of a source text begin and end
does not depend on letter case either. So to scan a text in lower case is to scan the text and to
put the lexemes in lower case (`Scanner.scan_lowered`, `tokenize_toLower`). Two texts that differ
only in the case of ASCII letters are the same text in lower case; hence their tokens differ only in
the case of their lexemes, and the parser, which goes by the types of the tokens, treats them alike
(`parse_of_alike`). The suggestions go by the lexemes, but put them in lower case first.
-/
namespace SLFront

/-! ## Characters -/

section
variable {c d : Char} {α : Type}

theorem toLower_of_isAlpha_eq_false (h : c.isAlpha = false) : c.toLower = c := by
  refine dif_neg fun hupper => ?_
  have : c.isUpper := by
    unfold Char.isUpper
    simpa using hupper
  unfold Char.isAlpha at h
  rw [this] at h
  cases h

theorem isAlpha_toLower (h : c.isAlpha) : c.toLower.isAlpha :=
  of_isAlpha (P := fun c => c.toLower.isAlpha) (by decide +kernel) h

/-- What is the same for all letters cannot tell a letter from its lower case. -/
theorem apply_toLower {f : Char → α} {a : α} (h : ∀ c, c.isAlpha → f c = a) (c : Char) :
    f c.toLower = f c := by
  cases hc : c.isAlpha with
  | true => rw [h c hc, h c.toLower (isAlpha_toLower hc)]
  | false => rw [toLower_of_isAlpha_eq_false hc]

@[simp] theorem toLower_toLower (c : Char) : c.toLower.toLower = c.toLower := by
  cases hc : c.isAlpha with
  | true => exact of_isAlpha (P := fun c => c.toLower.toLower = c.toLower) (by decide +kernel) hc
  | false => rw [toLower_of_isAlpha_eq_false hc, toLower_of_isAlpha_eq_false hc]

@[simp] theorem isAlpha_toLower_eq (c : Char) : c.toLower.isAlpha = c.isAlpha :=
  apply_toLower (fun _ hc => hc) c

theorem toLower_eq_iff (hd : d.isAlpha = false) : c.toLower = d ↔ c = d := by
  refine iff_of_eq (apply_toLower (f := (· = d)) (fun c hc => eq_false ?_) c)
  rintro rfl
  rw [hd] at hc
  cases hc

theorem isDigit_of_isAlpha (h : c.isAlpha) : c.isDigit = false :=
  of_isAlpha (P := fun c => c.isDigit = false) (by decide +kernel) h

@[simp] theorem isBlank_toLower (c : Char) : isBlank c.toLower = isBlank c := by
  simp [isBlank, toLower_eq_iff]

@[simp] theorem isCommentPart_toLower (c : Char) : isCommentPart c.toLower = isCommentPart c := by
  simp [isCommentPart, toLower_eq_iff]

@[simp] theorem isDigit_toLower (c : Char) : c.toLower.isDigit = c.isDigit :=
  apply_toLower (fun _ => isDigit_of_isAlpha) c

@[simp] theorem isWordStart_toLower (c : Char) : isWordStart c.toLower = isWordStart c := by
  simp [isWordStart, toLower_eq_iff]

@[simp] theorem isWordPart_toLower (c : Char) : isWordPart c.toLower = isWordPart c := by
  simp [isWordPart, Char.isAlphanum, toLower_eq_iff]

@[simp] theorem ofChar?_toLower (c : Char) : Symbol.ofChar? c.toLower = Symbol.ofChar? c := by
  refine apply_toLower (f := Symbol.ofChar?) (fun c hc => Lexeme.ofChar?_of_isWordStart ?_) c
  rw [isWordStart, hc, Bool.true_or]

end

/-! ## The parts of a text -/

/-- The text in lower case. -/
def lowered (cs : List Char) : List Char := cs.map Char.toLower

theorem toList_toLower (s : String) : s.toLower.toList = lowered s.toList := String.toList_map

@[simp] theorem lowered_cons (c : Char) (cs : List Char) :
    lowered (c :: cs) = c.toLower :: lowered cs := rfl

section
variable {p : Char → Bool} (hp : ∀ c, p c.toLower = p c) (cs : List Char)
include hp

theorem takeWhile_lowered : (lowered cs).takeWhile p = lowered (cs.takeWhile p) := by
  rw [lowered, lowered, List.takeWhile_map, show p ∘ Char.toLower = p from funext hp]

theorem dropWhile_lowered : (lowered cs).dropWhile p = lowered (cs.dropWhile p) := by
  rw [lowered, lowered, List.dropWhile_map, show p ∘ Char.toLower = p from funext hp]

end

section
variable (c : Char) (cs : List Char)

@[simp] theorem isPrefixOf_lowered :
    commentMark.isPrefixOf (lowered cs) = commentMark.isPrefixOf cs := by
  have hslash : ∀ c : Char, ('/' == c.toLower) = ('/' == c) := by
    intro c
    rw [Bool.eq_iff_iff, beq_iff_eq, beq_iff_eq, eq_comm, toLower_eq_iff (by decide), eq_comm]
  match cs with
  | [] => rfl
  | [c] => simp [commentMark, lowered, List.isPrefixOf]
  | c :: d :: cs => simp only [commentMark, lowered, List.map_cons, List.isPrefixOf, hslash]

/-- Comments are recognised in any letter case, and so are the gaps. -/
theorem splitGap_lowered :
    splitGap (lowered cs) = (lowered (gap cs), lowered (afterGap cs)) := by
  unfold gap afterGap splitGap
  simp only [takeWhile_lowered isBlank_toLower, dropWhile_lowered isBlank_toLower,
    isPrefixOf_lowered, takeWhile_lowered isCommentPart_toLower,
    dropWhile_lowered isCommentPart_toLower]
  split
  · simp [lowered]
  · rfl

@[simp] theorem Lexeme.wordKind_lowered (word : List Char) :
    wordKind (lowered word) = wordKind word := by
  have hword : (lowered word).map Char.toLower = word.map Char.toLower := by
    simp [lowered, Function.comp_def]
  unfold wordKind Keyword.ofWord?
  rw [hword]

/-- The lexeme in lower case, with the text after it. -/
def Lexeme.lowered (l : Lexeme) : Lexeme where
  kind := l.kind
  chars := SLFront.lowered l.chars
  rest := SLFront.lowered l.rest

theorem Lexeme.first_lowered :
    first c.toLower (SLFront.lowered cs) = (first c cs).lowered := by
  have hnewline : c.toLower = '\n' ↔ c = '\n' := toLower_eq_iff (by decide)
  unfold first
  simp only [hnewline, ofChar?_toLower, isWordStart_toLower, isDigit_toLower,
    takeWhile_lowered isWordPart_toLower, dropWhile_lowered isWordPart_toLower,
    takeWhile_lowered isDigit_toLower, dropWhile_lowered isDigit_toLower]
  split
  · rfl
  split
  · rfl
  split
  · rw [← lowered_cons, wordKind_lowered]
    rfl
  split <;> rfl

end

/-! ## Tokens -/

/-- The token with its lexeme in lower case. -/
def Token.lowered (t : Token) : Token := { t with lexeme := t.lexeme.toLower }

/-- The fatal error for the word in lower case. -/
def LexicalError.lowered (e : LexicalError) : LexicalError := .forbidden e.lexeme.toLower e.location

theorem Token.lowered_endOfInput (place : Location) :
    lowered ⟨.endOfInput, "", place⟩ = ⟨.endOfInput, "", place⟩ := by
  have hempty : "".toLower = "" := String.toList_inj.1 (toList_toLower "")
  rw [lowered, hempty]

theorem ofList_lowered (cs : List Char) :
    String.ofList (lowered cs) = (String.ofList cs).toLower :=
  String.toList_inj.1 (by simp [toList_toLower])

namespace Scanner

/-- The scanner on the text in lower case. -/
def lowered (s : Scanner) : Scanner := { s with rest := SLFront.lowered s.rest }

@[simp] theorem location_lowered (s : Scanner) : s.lowered.location = s.location := rfl

theorem tokenOf_lowered (l : Lexeme) (place : Location) :
    tokenOf l.lowered place = match tokenOf l place with
      | .ok t => .ok t.lowered
      | .error e => .error e.lowered := by
  obtain ⟨kind, chars, rest⟩ := l
  unfold tokenOf Lexeme.lowered
  dsimp only
  rw [ofList_lowered]
  cases kind with
  | keyword k =>
    dsimp only
    split <;> rfl
  | _ => rfl

theorem skipGap_lowered (s : Scanner) : s.lowered.skipGap = s.skipGap.lowered := by
  have hgap := splitGap_lowered s.rest
  simp only [skipGap, lowered, gap, afterGap, hgap]
  simp [SLFront.lowered]

theorem skipLexeme_lowered (s : Scanner) (l : Lexeme) :
    s.lowered.skipLexeme l.lowered = (s.skipLexeme l).lowered := by
  unfold skipLexeme Lexeme.lowered lowered
  dsimp only
  rw [SLFront.lowered, List.length_map]
  split <;> rfl

/-- To scan the text in lower case is to scan the text and to put the token in lower case. -/
theorem scan_lowered (s : Scanner) :
    s.lowered.scan = match s.scan with
      | .ok t s' => .ok t.lowered s'.lowered
      | .error e s' => .error e.lowered s'.lowered := by
  have hskip := skipGap_lowered s
  obtain ⟨hnil, hscan⟩ | ⟨c, cs, hcons, hscan⟩ := s.scan_cases
  · obtain ⟨-, hlow⟩ | ⟨c, cs, hcons, -⟩ := s.lowered.scan_cases
    · rw [hlow, hscan, hskip]
      dsimp only
      rw [Token.lowered_endOfInput, location_lowered]
    · rw [hskip, lowered, hnil] at hcons
      cases hcons
  · obtain ⟨hnil, -⟩ | ⟨d, ds, hcons', hlow⟩ := s.lowered.scan_cases
    · rw [hskip, lowered, hcons] at hnil
      cases hnil
    · rw [hskip, lowered, hcons] at hcons'
      obtain ⟨rfl, rfl⟩ := List.cons.inj hcons'
      rw [hlow, hscan, hskip, ← SLFront.lowered, Lexeme.first_lowered, skipLexeme_lowered,
        location_lowered, tokenOf_lowered]
      cases tokenOf (.first c cs) s.skipGap.location <;> rfl

end Scanner

namespace Lexer

/-- The lexer on the text in lower case. -/
def lowered (l : Lexer) : Lexer where
  scanner := l.scanner.lowered
  peeked := l.peeked.map Token.lowered

theorem next_lowered (l : Lexer) :
    l.lowered.next = match l.next with
      | .ok t l' => .ok t.lowered l'.lowered
      | .error e l' => .error e.lowered l'.lowered := by
  obtain ⟨s, peeked⟩ := l
  cases peeked with
  | some t => rfl
  | none =>
    unfold next lowered
    dsimp only [Option.map_none]
    rw [Scanner.scan_lowered]
    cases s.scan <;> rfl

theorem drain_lowered (l : Lexer) :
    l.lowered.drain = match l.drain with
      | .ok ts l' => .ok (ts.map Token.lowered) l'.lowered
      | .error e l' => .error e.lowered l'.lowered := by
  have hnext := next_lowered l
  fun_induction drain l with
  | case1 l e l' h =>
    rw [h] at hnext
    exact drain_of_error hnext
  | case2 l t l' h ht =>
    rw [h] at hnext
    exact drain_of_endOfInput hnext ht
  | case3 l t l' h ht _ ts l'' hts ih =>
    rw [h] at hnext
    have hrest := ih (next_lowered l')
    rw [hts] at hrest
    exact drain_of_next hnext ht hrest
  | case4 l t l' h ht _ e l'' he ih =>
    rw [h] at hnext
    have hrest := ih (next_lowered l')
    rw [he] at hrest
    exact drain_of_next_error hnext ht hrest

end Lexer

/-- The tokens of a text in lower case are the tokens of the text, in lower case. -/
theorem tokenize_toLower (source filename : String) :
    tokenize source.toLower filename = match tokenize source filename with
      | .ok ts => .ok (ts.map Token.lowered)
      | .error e => .error e.lowered := by
  have hstart : Lexer.start source.toLower filename = (Lexer.start source filename).lowered := by
    simp [Lexer.start, Scanner.start, Lexer.lowered, Scanner.lowered, SLFront.lowered,
      toList_toLower]
  unfold tokenize
  rw [hstart, Lexer.drain_lowered]
  cases (Lexer.start source filename).drain <;> rfl

/-! ## Suggestions -/

namespace Text.LetterCase

theorem isAscii_of_isAlpha {c : Char} (h : c.isAlpha) : isAscii c :=
  of_isAlpha (P := fun c => isAscii c) (by decide +kernel) h

theorem lowerChar_toLower (c : Char) : lowerChar c.toLower = lowerChar c := by
  cases hc : c.isAlpha with
  | true =>
    have hlower := isAlpha_toLower hc
    rw [lowerChar_of_ascii (isAscii_of_isAlpha hc), lowerChar_of_ascii (isAscii_of_isAlpha hlower),
      toLower_toLower]
  | false => rw [toLower_of_isAlpha_eq_false hc]

/-- Casing looks at letters, and not through them. -/
theorem cased_of_isAlpha {c : Char} (h : c.isAlpha) :
    CodeRange.anyContains ignorableRanges c = false ∧
      CodeRange.anyContains casedRanges c = true :=
  of_isAlpha (P := fun c => CodeRange.anyContains ignorableRanges c = false ∧
    CodeRange.anyContains casedRanges c = true) (by decide +kernel) h

theorem meetsCased_lowered (cs : List Char) : meetsCased (lowered cs) = meetsCased cs := by
  have hignorable := apply_toLower fun _ hc => (cased_of_isAlpha hc).1
  have hcased := apply_toLower fun _ hc => (cased_of_isAlpha hc).2
  unfold meetsCased
  rw [dropWhile_lowered hignorable]
  cases cs.dropWhile (CodeRange.anyContains ignorableRanges) with
  | nil => rfl
  | cons c cs => exact hcased c

theorem lowerAfter_lowered (before cs : List Char) :
    lowerAfter (lowered before) (lowered cs) = lowerAfter before cs := by
  induction cs generalizing before with
  | nil => rfl
  | cons c cs ih =>
    have hsigma : c.toLower = 'Σ' ↔ c = 'Σ' := toLower_eq_iff (by decide)
    have hrest := ih (c :: before)
    rw [lowered_cons] at hrest ⊢
    rw [lowerAfter, lowerAfter, endsWord, endsWord, meetsCased_lowered, meetsCased_lowered, hrest]
    by_cases hc : c = 'Σ'
    · rw [if_pos (hsigma.2 hc), if_pos hc]
    · rw [if_neg fun h => hc (hsigma.1 h), if_neg hc, lowerChar_toLower]

/-- The lower case of a text is that of the text with its ASCII letters in lower case. -/
theorem lower_toLower (s : String) : lower s.toLower = lower s := by
  have h := lowerAfter_lowered [] s.toList
  rw [lower, lower, toList_toLower]
  exact congrArg String.ofList h

end Text.LetterCase

/-! ## Two texts -/

/-- The tokens differ only in the letter case of their lexemes. -/
structure Token.SameButCase (t t' : Token) : Prop where
  kind : t'.kind = t.kind
  location : t'.location = t.location
  lexeme : t'.lexeme.toLower = t.lexeme.toLower
  length : t'.lexeme.length = t.lexeme.length

theorem Token.sameButCase_of_lowered {t t' : Token} (h : t.lowered = t'.lowered) :
    t.SameButCase t' := by
  obtain ⟨kind, lexeme, location⟩ := t
  obtain ⟨kind', lexeme', location'⟩ := t'
  obtain ⟨hkind, hlexeme, hlocation⟩ := Token.mk.inj h
  refine ⟨hkind.symm, hlocation.symm, hlexeme.symm, ?_⟩
  have hlength := congrArg (fun s => s.toList.length) hlexeme.symm
  simpa [toList_toLower, SLFront.lowered, String.length_toList] using hlength

theorem Token.forall₂_of_map_lowered {ts ts' : List Token}
    (h : ts.map lowered = ts'.map lowered) : List.Forall₂ SameButCase ts ts' := by
  rw [← List.forall₂_eq_eq_eq, List.forall₂_map_left_iff, List.forall₂_map_right_iff] at h
  exact h.imp fun _ _ => sameButCase_of_lowered

/-- What is suggested at a token does not depend on the letter case of its lexeme. -/
theorem SyntaxError.Alike.suggestions_eq {e e' : SyntaxError} (h : e.Alike Token.SameButCase e') :
    e'.suggestions = e.suggestions := by
  have hquestions : Suggestion.questions e'.token = Suggestion.questions e.token := by
    unfold Suggestion.questions Suggestion.keywords
    rw [h.token.kind, ← Text.LetterCase.lower_toLower e'.token.lexeme, h.token.lexeme,
      Text.LetterCase.lower_toLower]
  unfold suggestions
  rw [h.kind, hquestions]

/-- Where the tokens of two source texts are alike one by one, in a sense in which like tokens are
of one type, the blocks and the errors are alike. -/
theorem parse_of_alike {source source' filename filename' : String} {ts ts' : List Token}
    {R : Token → Token → Prop} (hkind : ∀ {t t'}, R t t' → t'.kind = t.kind)
    (hts : tokenize source filename = .ok ts) (hts' : tokenize source' filename' = .ok ts')
    (h : List.Forall₂ R ts ts') :
    ∃ bs es bs' es', parse source filename = .ok (bs, es) ∧
      parse source' filename' = .ok (bs', es') ∧ List.Forall₂ (Block.Alike R) bs bs' ∧
      List.Forall₂ (SyntaxError.Alike R) es es' := by
  obtain ⟨s, t, -, hs, herrors, hstatements, ht, -, hparse⟩ := exists_run_of_tokenize hts
  obtain ⟨s', t', -, hs', herrors', hstatements', ht', -, hparse'⟩ := exists_run_of_tokenize hts'
  let C : Comparison := { alike := R, kind_eq := hkind, first := s, second := s' }
  have heven : C.Even s s' := ⟨C.recorded_start, ts, ts', hs, hs', C.beside_of_forall₂ hs h⟩
  obtain ⟨u, hu, hrecorded⟩ := heven.exists_allStatements ht rfl
  cases ht'.symm.trans hu
  obtain ⟨bs, bs', hbs, hbs', hblocks⟩ := hrecorded.statements
  obtain ⟨es, es', hes, hes', herrs⟩ := hrecorded.errors
  rw [show C.first.statements = [] from hstatements, List.nil_append] at hbs
  rw [show C.second.statements = [] from hstatements', List.nil_append] at hbs'
  rw [show C.first.errors = [] from herrors, List.nil_append] at hes
  rw [show C.second.errors = [] from herrors', List.nil_append] at hes'
  exact ⟨bs, es, bs', es', by rw [hparse, hbs, hes], by rw [hparse', hbs', hes'], hblocks, herrs⟩

/-- Source texts that differ only in the case of ASCII letters have both a forbidden word at the
same place, or both have tokens, which differ only in the letter case of their lexemes. Then the
same blocks are found in both, and the same errors at the same places with the same suggestions. -/
theorem same_but_case {source source' : String} (h : source.toLower = source'.toLower)
    (filename : String) :
    (∃ e e', tokenize source filename = .error e ∧ tokenize source' filename = .error e' ∧
      e'.location = e.location) ∨
    ∃ ts ts', tokenize source filename = .ok ts ∧ tokenize source' filename = .ok ts' ∧
      List.Forall₂ Token.SameButCase ts ts' ∧
      ∃ bs es bs' es', parse source filename = .ok (bs, es) ∧
        parse source' filename = .ok (bs', es') ∧
        List.Forall₂ (Block.Alike Token.SameButCase) bs bs' ∧
        List.Forall₂ (SyntaxError.Alike Token.SameButCase) es es' ∧
        es'.map (fun e => (e.kind, e.code, e.location, e.suggestions)) =
          es.map (fun e => (e.kind, e.code, e.location, e.suggestions)) := by
  have hlow := tokenize_toLower source filename
  have hlow' := tokenize_toLower source' filename
  rw [← h, hlow] at hlow'
  cases hts : tokenize source filename with
  | error e =>
    cases hts' : tokenize source' filename with
    | error e' =>
      rw [hts, hts'] at hlow'
      have hlocation := congrArg LexicalError.location (Except.error.inj hlow')
      exact .inl ⟨e, e', rfl, rfl, hlocation.symm⟩
    | ok ts' =>
      rw [hts, hts'] at hlow'
      cases hlow'
  | ok ts =>
    cases hts' : tokenize source' filename with
    | error e' =>
      rw [hts, hts'] at hlow'
      cases hlow'
    | ok ts' =>
      rw [hts, hts'] at hlow'
      have halike := Token.forall₂_of_map_lowered (Except.ok.inj hlow')
      obtain ⟨bs, es, bs', es', hparse, hparse', hblocks, herrors⟩ :=
        parse_of_alike Token.SameButCase.kind hts hts' halike
      refine .inr ⟨ts, ts', rfl, rfl, halike, bs, es, bs', es', hparse, hparse', hblocks, herrors,
        map_eq_map_of_forall₂ herrors.flip fun e' e he => ?_⟩
      rw [he.suggestions_eq, SyntaxError.code, SyntaxError.code, SyntaxError.location,
        SyntaxError.location, he.kind, he.token.location]

/-- A misspelt word, a comment, a block keyword and an operator in other letter case. -/
theorem same_but_case_misspelt :
    let source := "Vra // A\nvar\n y = not (b"
    let source' := "vrA // a\nVAR\n Y = NOT (B"
    source.toLower = source'.toLower ∧ ∃ bs es bs' es', parse source = .ok (bs, es) ∧
      parse source' = .ok (bs', es') ∧
      es.map SyntaxError.kind = [.unexpectedExpression, .expectedClosingParen] ∧
      bs.map Block.keyword ≠ bs'.map Block.keyword ∧
      List.Forall₂ (Block.Alike Token.SameButCase) bs bs' ∧
      es'.map (fun e => (e.kind, e.code, e.location, e.suggestions)) =
        es.map (fun e => (e.kind, e.code, e.location, e.suggestions)) := by
  intro source source'
  have hlower : source.toLower = source'.toLower := String.toList_inj.1 (by
    rw [toList_toLower, toList_toLower]
    decide +kernel)
  have hrun : (tokenize source).toOption.isSome ∧
      (parse source).toOption.map (·.2.map SyntaxError.kind) =
        some [.unexpectedExpression, .expectedClosingParen] ∧
      (parse source).toOption.map (·.1.map Block.keyword) ≠
        (parse source').toOption.map (·.1.map Block.keyword) := by
    decide +kernel
  obtain ⟨e, -, he, -⟩ | ⟨-, -, -, -, -, bs, es, bs', es', hparse, hparse', hblocks, -, herrors⟩ :=
    same_but_case hlower Location.fromString
  · rw [he] at hrun
    cases hrun.1
  · rw [hparse, hparse'] at hrun
    exact ⟨hlower, bs, es, bs', es', hparse, hparse', Option.some.inj hrun.2.1,
      fun h => hrun.2.2 (congrArg some h), hblocks, herrors⟩

end SLFront
