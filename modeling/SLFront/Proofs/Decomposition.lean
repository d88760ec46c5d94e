import Mathlib.Data.List.TakeWhile
import SLFront.Proofs.Lexemes
import SLFront.Proofs.TokenStream

/-!
# The decomposition of a source text

A source text is gaps and lexemes by turns, with a gap at its end. What a gap and a lexeme are is
said here of their characters and of what follows them (`IsGap`, `IsLexeme`), without regard to how
they are read. A lexeme is as long as it can be, and it starts where no gap could go on
(`StartsLexeme`). So every text has one decomposition and no other (`exists_decomposition`,
`IsDecomposition.unique`), and the tokens of the text are its lexemes
(`tokenize_eq_lexemes`).

## Main definitions

* `IsGap`, `IsLexeme`, `StartsLexeme` — the parts of a text.
* `Piece`, `IsDecomposition` — a text as its parts.
* `Occurrence`, `Piece.occurrences` — the lexemes with the places at which they start.
-/
namespace SLFront

/-! ## The parts of a text -/

/-- The characters are a gap if this text follows: blanks, and perhaps one comment, which goes on up
to the end of the line or of the text. -/
inductive IsGap : List Char → List Char → Prop
  | blanks {bs rest : List Char} (hbs : ∀ c ∈ bs, isBlank c) : IsGap bs rest
  | comment {bs cs rest : List Char} (hbs : ∀ c ∈ bs, isBlank c) (hcs : ∀ c ∈ cs, c ≠ '\n')
    (hrest : ∀ c ∈ rest.head?, c = '\n') : IsGap (bs ++ (commentMark ++ cs)) rest

/-- No gap goes on here: the text starts neither with a blank nor with a comment. -/
structure StartsLexeme (cs : List Char) : Prop where
  blank : ∀ c ∈ cs.head?, isBlank c = false
  comment : ¬ commentMark <+: cs

/-- The characters are a lexeme of the type if this text follows: a line feed, a symbol, a word that
does not go on, a number that does not go on, or any other character alone. A word is reserved when
its spelling in lower case is that of a reserved word. -/
inductive IsLexeme : List Char → Token.Kind → List Char → Prop
  | newline {rest : List Char} : IsLexeme ['\n'] .newline rest
  | symbol {rest : List Char} (s : Symbol) : IsLexeme [s.char] (.symbol s) rest
  | keyword {w rest : List Char} {k : Keyword} (hw : isWord w)
    (hk : w.map Char.toLower = k.spelling.toList) (hrest : ∀ c ∈ rest.head?, isWordPart c = false) :
    IsLexeme w (.keyword k) rest
  | identifier {w rest : List Char} (hw : isWord w)
    (hk : ∀ k : Keyword, w.map Char.toLower ≠ k.spelling.toList)
    (hrest : ∀ c ∈ rest.head?, isWordPart c = false) : IsLexeme w .identifier rest
  | number {w rest : List Char} (hne : w ≠ []) (hw : ∀ c ∈ w, c.isDigit)
    (hrest : ∀ c ∈ rest.head?, c.isDigit = false) : IsLexeme w .number rest
  | illegal {c : Char} {rest : List Char} (hnewline : c ≠ '\n') (hsymbol : ∀ s : Symbol, s.char ≠ c)
    (hword : isWordStart c = false) (hdigit : c.isDigit = false) : IsLexeme [c] .illegal rest

/-- A lexeme with the gap in front of it. -/
structure Piece where
  gap : List Char
  kind : Token.Kind
  chars : List Char

/-- The text is the pieces, and a gap at its end. -/
inductive IsDecomposition : List Char → List Piece → List Char → Prop
  | last {g : List Char} (hg : IsGap g []) : IsDecomposition g [] g
  | piece {g w rest lastGap : List Char} {k : Token.Kind} {ps : List Piece}
    (hg : IsGap g (w ++ rest)) (hstart : StartsLexeme (w ++ rest)) (hw : IsLexeme w k rest)
    (hrest : IsDecomposition rest ps lastGap) :
    IsDecomposition (g ++ (w ++ rest)) (⟨g, k, w⟩ :: ps) lastGap

/-- A lexeme and the offset at which it starts. -/
structure Occurrence where
  kind : Token.Kind
  chars : List Char
  offset : Int

/-- The token as an occurrence of its lexeme. -/
def Token.occurrence (t : Token) : Occurrence := ⟨t.kind, t.lexeme.toList, t.location.offset⟩

/-- The lexeme is one of the forbidden words, in any letter case. -/
def Occurrence.isForbidden (o : Occurrence) : Bool :=
  ["lib", "libext", "archivo"].any fun word => o.chars.map Char.toLower = word.toList

/-- The lexemes of a text that starts at an offset. -/
def Piece.occurrences (offset : Nat) : List Piece → List Occurrence
  | [] => []
  | p :: ps =>
    let start := offset + p.gap.length
    ⟨p.kind, p.chars, start⟩ :: occurrences (start + p.chars.length) ps

/-! ## Gaps -/

section
variable {cs g rest : List Char}

theorem head?_dropWhile {p : Char → Bool} : ∀ c ∈ (cs.dropWhile p).head?, p c = false := by
  intro c hc
  have := List.head?_dropWhile_not p cs
  rw [Option.mem_def.1 hc] at this
  simpa using this

/-- The gap that is read at the start of a text is one. -/
theorem isGap_gap (cs : List Char) : IsGap (gap cs) (afterGap cs) := by
  unfold gap afterGap splitGap
  dsimp only
  have hblanks : ∀ c ∈ cs.takeWhile isBlank, isBlank c := fun c hc => List.mem_takeWhile_imp hc
  split
  · rename_i hcomment
    obtain ⟨rest, hrest⟩ := List.isPrefixOf_iff_prefix.1 hcomment
    have hpart : ∀ c ∈ commentMark, isCommentPart c := by simp [commentMark, isCommentPart]
    rw [← hrest, List.takeWhile_append_of_pos hpart, List.dropWhile_append_of_pos hpart]
    refine .comment hblanks (fun c hc => ?_) fun c hc => ?_
    · simpa [isCommentPart] using List.mem_takeWhile_imp hc
    · simpa [isCommentPart] using head?_dropWhile c hc
  · exact .blanks hblanks

/-- What follows the gap that is read is no gap. -/
theorem startsLexeme_afterGap (cs : List Char) : StartsLexeme (afterGap cs) := by
  unfold afterGap splitGap
  dsimp only
  split
  · -- The comment has gone on up to a line feed or to the end.
    generalize cs.dropWhile isBlank = rest
    have hhead : ∀ c ∈ (rest.dropWhile isCommentPart).head?, c = '\n' := by
      intro c hc
      simpa [isCommentPart] using head?_dropWhile c hc
    cases hrest : rest.dropWhile isCommentPart with
    | nil => exact ⟨by simp, by simp [commentMark]⟩
    | cons c cs =>
      rw [hrest] at hhead
      obtain rfl := hhead c rfl
      exact ⟨by simp [isBlank], by simp [commentMark]⟩
  · rename_i hcomment
    refine ⟨head?_dropWhile, fun h => hcomment (List.isPrefixOf_iff_prefix.2 h)⟩

/-- A gap in front of a lexeme, or at the end, is the one that is read. -/
theorem splitGap_of_isGap (hg : IsGap g rest) (hrest : StartsLexeme rest) :
    splitGap (g ++ rest) = (g, rest) := by
  unfold splitGap
  cases hg with
  | blanks hbs =>
    have hcomment : ¬ commentMark.isPrefixOf rest := fun h =>
      hrest.comment (List.isPrefixOf_iff_prefix.1 h)
    rw [Lexeme.takeWhile_append_eq hbs hrest.blank, Lexeme.dropWhile_append_eq hbs hrest.blank]
    dsimp only
    rw [if_neg hcomment]
  | @comment bs cs rest hbs hcs hnewline =>
    have hmark : ∀ c ∈ (commentMark ++ (cs ++ rest)).head?, isBlank c = false := by
      simp [commentMark, isBlank]
    have hpart : ∀ c ∈ commentMark ++ cs, isCommentPart c := by
      rw [List.forall_mem_append]
      exact ⟨by simp [commentMark, isCommentPart], fun c hc => by
        simpa [isCommentPart] using hcs c hc⟩
    have hstop : ∀ c ∈ rest.head?, isCommentPart c = false := by
      intro c hc
      rw [hnewline c hc]
      rfl
    have hcomment : commentMark.isPrefixOf (commentMark ++ cs ++ rest) := by
      rw [List.append_assoc]
      exact List.isPrefixOf_iff_prefix.2 (List.prefix_append ..)
    rw [List.append_assoc bs, List.append_assoc commentMark, Lexeme.takeWhile_append_eq hbs hmark,
      Lexeme.dropWhile_append_eq hbs hmark, ← List.append_assoc commentMark]
    dsimp only
    rw [if_pos hcomment, Lexeme.takeWhile_append_eq hpart hstop,
      Lexeme.dropWhile_append_eq hpart hstop]

end

/-! ## Lexemes -/

namespace IsLexeme
variable {w rest : List Char} {k : Token.Kind}

/-- The lexeme that is read at the start of a text is one. -/
theorem first (c : Char) (cs : List Char) :
    IsLexeme (Lexeme.first c cs).chars (Lexeme.first c cs).kind (Lexeme.first c cs).rest := by
  unfold Lexeme.first
  split
  · rename_i hc
    rw [hc]
    exact .newline
  rename_i hnewline
  split
  · rename_i s hs
    rw [← Symbol.ofChar?_eq_some_iff.1 hs]
    exact .symbol s
  rename_i hnone
  split
  · rename_i hword
    have hw : isWord (c :: cs.takeWhile isWordPart) := by
      simp only [isWord, hword, Bool.true_and, List.all_eq_true]
      exact fun x hx => List.mem_takeWhile_imp hx
    dsimp only
    unfold Lexeme.wordKind
    split
    · rename_i k hk
      exact .keyword hw (Keyword.ofWord?_eq_some_iff.1 hk).symm head?_dropWhile
    · rename_i hk
      refine .identifier hw (fun k h => ?_) head?_dropWhile
      rw [Keyword.ofWord?_eq_some_iff.2 h.symm] at hk
      cases hk
  rename_i hword
  split
  · rename_i hdigit
    refine .number (by simp) (List.forall_mem_cons.2 ⟨hdigit, fun x hx => ?_⟩) head?_dropWhile
    exact List.mem_takeWhile_imp hx
  · rename_i hdigit
    refine .illegal hnewline (fun s hs => ?_) (by simpa using hword) (by simpa using hdigit)
    exact hnone s (Symbol.ofChar?_eq_some_iff.2 hs)

/-- A lexeme is read as the lexeme that it is. -/
theorem first_eq (h : IsLexeme w k rest) :
    ∃ c cs, w = c :: cs ∧ Lexeme.first c (cs ++ rest) = ⟨k, w, rest⟩ := by
  cases h with
  | newline => exact ⟨'\n', [], rfl, rfl⟩
  | symbol s => exact ⟨s.char, [], rfl, Lexeme.first_symbol s rest⟩
  | @keyword _ _ k hw hk hrest =>
    cases w with
    | nil => cases hw
    | cons c cs =>
      simp only [isWord, Bool.and_eq_true, List.all_eq_true] at hw
      refine ⟨c, cs, rfl, (Lexeme.first_word hw.1 hw.2 hrest).trans ?_⟩
      rw [Lexeme.wordKind, Keyword.ofWord?_eq_some_iff.2 hk.symm]
  | identifier hw hk hrest =>
    cases w with
    | nil => cases hw
    | cons c cs =>
      simp only [isWord, Bool.and_eq_true, List.all_eq_true] at hw
      have hnone : Keyword.ofWord? (c :: cs) = none := by
        cases hk' : Keyword.ofWord? (c :: cs) with
        | none => rfl
        | some k => exact absurd (Keyword.ofWord?_eq_some_iff.1 hk').symm (hk k)
      refine ⟨c, cs, rfl, (Lexeme.first_word hw.1 hw.2 hrest).trans ?_⟩
      rw [Lexeme.wordKind, hnone]
  | number hne hw hrest =>
    cases w with
    | nil => exact absurd rfl hne
    | cons c cs =>
      obtain ⟨hc, hcs⟩ := List.forall_mem_cons.1 hw
      exact ⟨c, cs, rfl, Lexeme.first_number hc hcs hrest⟩
  | @illegal c _ hnewline hsymbol hword hdigit =>
    have hnone : Symbol.ofChar? c = none := by
      cases hs : Symbol.ofChar? c with
      | none => rfl
      | some s => exact absurd (Symbol.ofChar?_eq_some_iff.1 hs) (hsymbol s)
    refine ⟨c, [], rfl, ?_⟩
    simp [Lexeme.first, hnewline, hnone, hword, hdigit]

/-- A lexeme that spells a reserved word is of the type of that word. -/
theorem kind_of_spelling (h : IsLexeme w k rest) {q : Keyword}
    (hq : w.map Char.toLower = q.spelling.toList) : k = .keyword q := by
  have hword : isWord w := isWord_of_spelling hq.symm
  cases h with
  | newline => exact absurd hword (by decide)
  | symbol s => cases s <;> exact absurd hword (by decide)
  | keyword _ hk _ => rw [Keyword.spelling_injective (String.toList_inj.1 (hk.symm.trans hq))]
  | identifier _ hk _ => exact absurd hq (hk q)
  | number hne hw _ =>
    cases w with
    | nil => exact absurd rfl hne
    | cons c cs => simp [isWord, isWordStart_of_isDigit (hw c List.mem_cons_self)] at hword
  | illegal _ _ hstart _ => simp [isWord, hstart] at hword

theorem map_toLower (h : IsLexeme w k rest) {q : Keyword} (hk : k = .keyword q) :
    w.map Char.toLower = q.spelling.toList := by
  cases h with
  | keyword _ hw _ => rw [hw, Token.Kind.keyword.inj hk]
  | _ => cases hk

theorem kind_ne_endOfInput (h : IsLexeme w k rest) : k ≠ .endOfInput := by
  cases h <;> exact fun hk => by cases hk

/-- A lexeme is forbidden if and only if its type is that of a forbidden word. -/
theorem isForbidden_iff (h : IsLexeme w k rest) (offset : Int) :
    Occurrence.isForbidden ⟨k, w, offset⟩ ↔ ∃ q : Keyword, k = .keyword q ∧ q.isForbidden := by
  simp only [Occurrence.isForbidden, List.any_cons, List.any_nil, Bool.or_false, Bool.or_eq_true,
    decide_eq_true_eq]
  constructor
  · rintro (hw | hw | hw)
    · exact ⟨.lib, h.kind_of_spelling hw, rfl⟩
    · exact ⟨.libext, h.kind_of_spelling hw, rfl⟩
    · exact ⟨.archivo, h.kind_of_spelling hw, rfl⟩
  · rintro ⟨q, hk, hq⟩
    have hw := h.map_toLower hk
    cases q
    case lib => exact .inl hw
    case libext => exact .inr (.inl hw)
    case archivo => exact .inr (.inr hw)
    all_goals cases hq

end IsLexeme

/-! ## One decomposition and no other -/

theorem exists_decomposition (cs : List Char) : ∃ ps lastGap, IsDecomposition cs ps lastGap := by
  induction hn : cs.length using Nat.strongRecOn generalizing cs with
  | _ n ih =>
    subst hn
    have hgap := isGap_gap cs
    have hstart := startsLexeme_afterGap cs
    rw [← gap_append_afterGap cs]
    cases hrest : afterGap cs with
    | nil =>
      rw [hrest] at hgap
      rw [List.append_nil]
      exact ⟨[], _, .last hgap⟩
    | cons c rest =>
      have hle := Lexeme.length_rest_le c rest
      have hlength := length_gap_add_length_afterGap cs
      rw [hrest, List.length_cons] at hlength
      obtain ⟨ps, lastGap, hps⟩ := ih _ (by omega) (Lexeme.first c rest).rest rfl
      rw [hrest, ← Lexeme.chars_append_rest c rest] at hgap hstart
      rw [← Lexeme.chars_append_rest c rest]
      exact ⟨_, lastGap, .piece hgap hstart (.first c rest) hps⟩

theorem startsLexeme_nil : StartsLexeme [] := ⟨by simp, by simp [commentMark]⟩

/-- The parts of a text make up the text. -/
theorem IsDecomposition.flatMap_append {cs : List Char} {ps : List Piece} {lastGap : List Char}
    (h : IsDecomposition cs ps lastGap) :
    ps.flatMap (fun p => p.gap ++ p.chars) ++ lastGap = cs := by
  induction h with
  | last => rfl
  | piece _ _ _ _ ih => rw [List.flatMap_cons, List.append_assoc, ih, List.append_assoc]

section
variable {g g' w w' rest rest' : List Char} {k k' : Token.Kind}

/-- What a text starts with, a gap and a lexeme, is determined by the text. -/
theorem eq_of_gap_append_lexeme (hg : IsGap g (w ++ rest)) (hstart : StartsLexeme (w ++ rest))
    (hw : IsLexeme w k rest) (hg' : IsGap g' (w' ++ rest')) (hstart' : StartsLexeme (w' ++ rest'))
    (hw' : IsLexeme w' k' rest') (heq : g ++ (w ++ rest) = g' ++ (w' ++ rest')) :
    g' = g ∧ k' = k ∧ w' = w ∧ rest' = rest := by
  have hsplit := splitGap_of_isGap hg hstart
  rw [heq, splitGap_of_isGap hg' hstart'] at hsplit
  obtain ⟨hgap, htext⟩ := Prod.mk.inj hsplit
  obtain ⟨c, cs, rfl, hfirst⟩ := hw.first_eq
  obtain ⟨c', cs', rfl, hfirst'⟩ := hw'.first_eq
  rw [List.cons_append, List.cons_append] at htext
  obtain ⟨rfl, htail⟩ := List.cons.inj htext
  rw [htail, hfirst] at hfirst'
  obtain ⟨rfl, hchars, rfl⟩ := Lexeme.mk.inj hfirst'
  exact ⟨hgap, rfl, hchars.symm, rfl⟩

/-- No lexeme comes in what is a gap alone. -/
theorem gap_append_lexeme_ne (hg : IsGap g (w ++ rest)) (hstart : StartsLexeme (w ++ rest))
    (hw : IsLexeme w k rest) (hg' : IsGap g' []) : g ++ (w ++ rest) ≠ g' := by
  intro heq
  have hsplit := splitGap_of_isGap hg hstart
  rw [heq, ← List.append_nil g', splitGap_of_isGap hg' startsLexeme_nil] at hsplit
  obtain ⟨c, cs, rfl, -⟩ := hw.first_eq
  cases (Prod.mk.inj hsplit).2

end

/-- A text can be taken apart in one way only. -/
theorem IsDecomposition.unique {cs : List Char} {ps ps' : List Piece} {g g' : List Char}
    (h : IsDecomposition cs ps g) (h' : IsDecomposition cs ps' g') : ps' = ps ∧ g' = g := by
  induction h generalizing ps' with
  | @last g hg =>
    generalize htext : g = text at h'
    cases h' with
    | last => exact ⟨rfl, rfl⟩
    | piece hg' hstart hw _ => exact absurd htext.symm (gap_append_lexeme_ne hg' hstart hw hg)
  | @piece g w rest lastGap k ps hg hstart hw _ ih =>
    generalize htext : g ++ (w ++ rest) = text at h'
    cases h' with
    | last hg' => exact absurd htext (gap_append_lexeme_ne hg hstart hw hg')
    | piece hg' hstart' hw' hrest' =>
      obtain ⟨rfl, rfl, rfl, rfl⟩ := eq_of_gap_append_lexeme hg hstart hw hg' hstart' hw' htext
      obtain ⟨rfl, hlast⟩ := ih hrest'
      exact ⟨rfl, hlast⟩

/-! ## Scanning -/

namespace Scanner
variable {s : Scanner} {g w rest : List Char} {k : Token.Kind}

/-- A lexeme that is not forbidden is a token. -/
theorem tokenOf_of_not_isForbidden {place : Location}
    (h : ∀ q : Keyword, k = .keyword q → q.isForbidden = false) :
    tokenOf ⟨k, w, rest⟩ place = .ok ⟨k, String.ofList w, place⟩ := by
  unfold tokenOf
  dsimp only
  split
  · rename_i q
    rw [h q rfl]
    rfl
  · rfl

theorem tokenOf_of_isForbidden {q : Keyword} {place : Location}
    (h : q.isForbidden) :
    tokenOf ⟨.keyword q, w, rest⟩ place = .error (.forbidden (String.ofList w) place) := by
  unfold tokenOf
  dsimp only
  rw [if_pos h]

theorem tokenOf_eq_ok {lexeme : Lexeme} {place : Location} {t : Token}
    (h : tokenOf lexeme place = .ok t) : t = ⟨lexeme.kind, String.ofList lexeme.chars, place⟩ ∧
      ∀ q : Keyword, lexeme.kind = .keyword q → q.isForbidden = false := by
  unfold tokenOf at h
  dsimp only at h
  split at h
  · rename_i k hk
    split at h
    · cases h
    · rename_i hfree
      cases h
      refine ⟨by rw [hk], fun q hq => ?_⟩
      rw [hk] at hq
      cases hq
      simpa using hfree
  · rename_i hk
    cases h
    exact ⟨rfl, fun q hq => absurd hq (hk q)⟩

theorem skipGap_of_isGap (hg : IsGap g rest) (hrest : StartsLexeme rest)
    (hs : s.rest = g ++ rest) :
    s.skipGap = { s with rest, offset := s.offset + g.length } := by
  unfold skipGap gap afterGap
  rw [hs, splitGap_of_isGap hg hrest]

/-- Scanning takes away a gap and the lexeme behind it, and gives the lexeme with its place, as a
token or as the error that it is forbidden. -/
theorem scan_of_isLexeme (hg : IsGap g (w ++ rest)) (hstart : StartsLexeme (w ++ rest))
    (hw : IsLexeme w k rest) (hs : s.rest = g ++ (w ++ rest)) :
    ∃ (s' : Scanner) (place : Location), s'.rest = rest ∧
      s'.offset = s.offset + g.length + w.length ∧ s'.filename = s.filename ∧
      place.filename = s.filename ∧ place.offset = (s.offset + g.length : Nat) ∧
      ((∀ q : Keyword, k = .keyword q → q.isForbidden = false) →
        s.scan = .ok ⟨k, String.ofList w, place⟩ s') ∧
      (∀ q : Keyword, k = .keyword q → q.isForbidden →
        s.scan = .error (.forbidden (String.ofList w) place) s') := by
  have hskip := skipGap_of_isGap hg hstart hs
  obtain ⟨c, cs, rfl, hfirst⟩ := hw.first_eq
  have hrest : s.skipGap.rest = c :: (cs ++ rest) := by
    rw [hskip]
    rfl
  refine ⟨s.skipGap.skipLexeme ⟨k, c :: cs, rest⟩, s.skipGap.location, rest_skipLexeme .., ?_, ?_,
    by rw [hskip]; rfl, by rw [hskip]; rfl, fun hfree => ?_, ?_⟩
  · unfold skipLexeme
    dsimp only
    rw [hskip]
    split <;> rfl
  · unfold skipLexeme
    dsimp only
    rw [hskip]
    split <;> rfl
  · unfold scan
    dsimp only
    rw [hrest]
    dsimp only
    rw [hfirst, tokenOf_of_not_isForbidden hfree]
  · rintro q rfl hq
    unfold scan
    dsimp only
    rw [hrest]
    dsimp only
    rw [hfirst, tokenOf_of_isForbidden hq]

/-- Scanning a gap that ends the text gives the end of input. -/
theorem scan_of_isGap (hg : IsGap g []) (hs : s.rest = g) :
    ∃ (s' : Scanner) (place : Location), place.offset = (s.offset + g.length : Nat) ∧
      s.scan = .ok ⟨.endOfInput, "", place⟩ s' := by
  have hskip := skipGap_of_isGap hg startsLexeme_nil (hs.trans (List.append_nil g).symm)
  refine ⟨s.skipGap, s.skipGap.location, by rw [hskip]; rfl, ?_⟩
  have hrest : s.skipGap.rest = [] := by rw [hskip]
  unfold scan
  dsimp only
  rw [hrest]

end Scanner

/-- Draining a lexer in front of a text gives the lexemes of the text, as far as none is
forbidden. -/
theorem Lexer.drain_of_isDecomposition {cs : List Char} {ps : List Piece} {lastGap : List Char}
    (h : IsDecomposition cs ps lastGap) {l : Lexer} (hp : l.peeked = none)
    (hl : l.scanner.rest = cs) :
    match (Piece.occurrences l.scanner.offset ps).find? Occurrence.isForbidden with
    | none => ∃ ts l', l.drain = .ok ts l' ∧ ts.map Token.occurrence =
        Piece.occurrences l.scanner.offset ps ++
          [⟨.endOfInput, [], (l.scanner.offset + cs.length : Nat)⟩]
    | some o => ∃ place l', l.drain = .error (.forbidden (String.ofList o.chars) place) l' ∧
        place.offset = o.offset ∧ place.filename = l.scanner.filename := by
  induction h generalizing l with
  | @last g hg =>
    obtain ⟨s', place, hplace, hscan⟩ := Scanner.scan_of_isGap hg hl
    refine ⟨_, _, drain_of_endOfInput (next_of_scan hp hscan) rfl, ?_⟩
    simp [Token.occurrence, Piece.occurrences, hplace]
  | @piece g w rest lastGap k ps hg hstart hw _ ih =>
    obtain ⟨s', place, hrest, hoffset, hfilename, hplace, hat, htoken, herror⟩ :=
      Scanner.scan_of_isLexeme hg hstart hw hl
    rw [Piece.occurrences]
    dsimp only
    rw [List.find?_cons]
    cases hforbidden : Occurrence.isForbidden ⟨k, w, (l.scanner.offset + g.length : Nat)⟩ with
    | true =>
      obtain ⟨q, hk, hq⟩ := (hw.isForbidden_iff _).1 hforbidden
      exact ⟨place, _, drain_of_error (next_of_scan_error hp (herror q hk hq)), hat, hplace⟩
    | false =>
      have hfree : ∀ q : Keyword, k = .keyword q → q.isForbidden = false := by
        intro q hk
        rw [← Bool.not_eq_true]
        intro hq
        rw [(hw.isForbidden_iff _).2 ⟨q, hk, hq⟩] at hforbidden
        cases hforbidden
      have hnext := next_of_scan hp (htoken hfree)
      have hkind : k ≠ .endOfInput := hw.kind_ne_endOfInput
      have htail := ih (l := { l with scanner := s' }) hp hrest
      dsimp only at htail ⊢
      rw [hoffset, hfilename] at htail
      split at htail
      · rename_i hnone
        obtain ⟨ts, l', hdrain, hts⟩ := htail
        rw [hnone]
        refine ⟨_, l', drain_of_next hnext hkind hdrain, ?_⟩
        rw [List.map_cons, hts, List.length_append, List.length_append]
        simp [Token.occurrence, hat]
        omega
      · rename_i o ho
        obtain ⟨place', l', hdrain, hat', hplace'⟩ := htail
        rw [ho]
        exact ⟨place', l', drain_of_next_error hnext hkind hdrain, hat', hplace'⟩

/-- Every source text has exactly one decomposition, in which no character is lost. If none of its
lexemes is a forbidden word, its tokens are these lexemes with their types and offsets, and the end
of input where the text ends; otherwise the first forbidden word is a fatal error. -/
theorem tokenize_eq_lexemes (source filename : String) :
    ∃ ps lastGap, IsDecomposition source.toList ps lastGap ∧
      ps.flatMap (fun p => p.gap ++ p.chars) ++ lastGap = source.toList ∧
      (∀ ps' lastGap', IsDecomposition source.toList ps' lastGap' →
        ps' = ps ∧ lastGap' = lastGap) ∧
      match (Piece.occurrences 0 ps).find? Occurrence.isForbidden with
      | none => ∃ ts, tokenize source filename = .ok ts ∧ ts.map Token.occurrence =
          Piece.occurrences 0 ps ++ [⟨.endOfInput, [], source.length⟩]
      | some o => ∃ e place, tokenize source filename = .error e ∧
          e = .forbidden (String.ofList o.chars) place ∧
          e.lexeme = String.ofList o.chars ∧ e.location = place ∧
          place.offset = o.offset ∧ place.filename = filename := by
  obtain ⟨ps, lastGap, hps⟩ := exists_decomposition source.toList
  refine ⟨ps, lastGap, hps, hps.flatMap_append, fun _ _ h => hps.unique h, ?_⟩
  have hdrain := Lexer.drain_of_isDecomposition hps (l := .start source filename) rfl rfl
  unfold tokenize
  dsimp only [Lexer.start, Scanner.start] at hdrain ⊢
  split at hdrain
  · rename_i hnone
    obtain ⟨ts, l', hok, hts⟩ := hdrain
    rw [hok]
    refine ⟨ts, rfl, ?_⟩
    rw [hts, Nat.zero_add, String.length_toList]
  · rename_i o ho
    obtain ⟨place, l', herror, hat, hplace⟩ := hdrain
    rw [herror]
    exact ⟨_, place, rfl, rfl, rfl, rfl, hat, hplace⟩

end SLFront
