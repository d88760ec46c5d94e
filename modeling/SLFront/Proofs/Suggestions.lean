import Mathlib.Data.List.Pairwise
import SLFront.Proofs.EditScripts
import SLFront.SyntaxError

/-!
# The best suggestions

A reserved word fits a word, if it is allowed, another word, and at most two edits away. The fitting
words are ranked by their Levenshtein distance, and alphabetically where that is the same
(`Suggestion.Precedes`). The candidates are in alphabetical order, so those at distance one and then
those at distance two are all fitting words in the order of their ranks (`Suggestion.mem_ranked`,
`Suggestion.pairwise_ranked`). What is suggested are the first three (`Suggestion.keywords_best`).

Where a statement should start, the same three are asked about, whether or not they open one. So a
word that opens a statement is asked about if and only if fewer than three words of any kind come
before it, and only words that open a statement are asked about if and only if all three do
(`Suggestion.questions_ranked`). In `Suggestion.questions_about_others` none of them does, and a
word that would have fitted is left out.
-/
namespace SLFront.Suggestion
open Text (levenshtein)

/-- The least number of edits between a word and a reserved word, their Levenshtein distance. -/
noncomputable abbrev edits (word : String) (k : Keyword) : Nat :=
  levenshtein word.toList k.spelling.toList

/-- The reserved word may be what was meant by a word, which is given in lower case. -/
structure Fits (word : String) (k : Keyword) : Prop where
  allowed : k.isForbidden = false
  other : k.spelling ≠ word
  near : edits word k ≤ 2

/-- The one reserved word is nearer to a word than the other, or as near and in front of it in
alphabetical order. -/
def Precedes (word : String) (k l : Keyword) : Prop :=
  edits word k < edits word l ∨ edits word k = edits word l ∧ k.spelling < l.spelling

/-- The candidates at distance one, and behind them those at distance two. -/
def ranked (word : String) : List Keyword :=
  candidatesAt word.toList 1 ++ candidatesAt word.toList 2

section
variable {word : String} {k l : Keyword}

theorem distance_eq (word : String) (k : Keyword) : distance word.toList k = edits word k :=
  Text.editDistance_eq_levenshtein _ _

theorem edits_eq_zero_iff : edits word k = 0 ↔ k.spelling = word := by
  rw [Text.levenshtein_eq_zero_iff, String.toList_inj, eq_comm]

theorem mem_candidatesAt {d : Nat} :
    k ∈ candidatesAt word.toList d ↔ k.isForbidden = false ∧ edits word k = d := by
  simp [candidatesAt, mem_candidates_iff, distance_eq]

theorem mem_ranked : k ∈ ranked word ↔ Fits word k := by
  rw [ranked, List.mem_append, mem_candidatesAt, mem_candidatesAt]
  constructor
  · rintro (⟨hallowed, hedits⟩ | ⟨hallowed, hedits⟩) <;>
    · refine ⟨hallowed, fun hsame => ?_, by omega⟩
      rw [edits_eq_zero_iff.2 hsame] at hedits
      cases hedits
  · rintro ⟨hallowed, hother, hnear⟩
    have hne : edits word k ≠ 0 := fun hzero => hother (edits_eq_zero_iff.1 hzero)
    rcases (by omega : edits word k = 1 ∨ edits word k = 2) with hedits | hedits
    · exact .inl ⟨hallowed, hedits⟩
    · exact .inr ⟨hallowed, hedits⟩

theorem pairwise_candidates : candidates.Pairwise fun k l => k.spelling < l.spelling := by
  decide

theorem pairwise_candidatesAt (d : Nat) :
    (candidatesAt word.toList d).Pairwise (Precedes word) := by
  refine (pairwise_candidates.filter _).imp_of_mem fun hk hl hlt => ?_
  exact .inr ⟨(mem_candidatesAt.1 hk).2.trans (mem_candidatesAt.1 hl).2.symm, hlt⟩

theorem pairwise_ranked : (ranked word).Pairwise (Precedes word) := by
  refine List.pairwise_append.2 ⟨pairwise_candidatesAt 1, pairwise_candidatesAt 2, ?_⟩
  intro k hk l hl
  left
  rw [(mem_candidatesAt.1 hk).2, (mem_candidatesAt.1 hl).2]
  exact Nat.lt_succ_self 1

noncomputable instance : DecidableRel (Precedes word) := fun _ _ =>
  inferInstanceAs (Decidable (_ ∨ _))

theorem Precedes.ne (h : Precedes word k l) : k ≠ l := by
  rintro rfl
  obtain hlt | ⟨-, hlt⟩ := h
  · exact Nat.lt_irrefl _ hlt
  · exact String.lt_irrefl _ hlt

theorem Precedes.irrefl (k : Keyword) : ¬Precedes word k k := fun h => h.ne rfl

theorem Precedes.asymm (k l : Keyword) (h : Precedes word k l) : ¬Precedes word l k := by
  rintro (hlt' | ⟨heq', hlt'⟩) <;> obtain hlt | ⟨heq, hlt⟩ := h
  · omega
  · omega
  · omega
  · exact String.lt_asymm hlt hlt'

theorem keywords_eq_take (word : String) :
    keywords word = (ranked (Text.LetterCase.lower word)).take limit := rfl

/-- What is not among the first ones of a list comes after all of them. -/
theorem rel_of_mem_take {α : Type} {R : α → α → Prop} {xs : List α} {n : Nat} {x y : α}
    (h : xs.Pairwise R) (hx : x ∈ xs.take n) (hy : y ∈ xs) (hnot : y ∉ xs.take n) : R x y := by
  rw [← List.take_append_drop n xs] at h hy
  have hdrop : y ∈ xs.drop n := (List.mem_append.1 hy).resolve_left hnot
  exact (List.pairwise_append.1 h).2.2 x hx y hdrop

end

/-- The suggestions for a word are the first three of the words that fit it in lower case, nearest
first and alphabetically where they are equally near. So no word that fits better is left out, none
comes twice, and neither the word itself nor a forbidden one is suggested. -/
theorem keywords_best (word : String) :
    ∃ (w : String) (ks : List Keyword), w = Text.LetterCase.lower word ∧
      (∀ k, k ∈ ks ↔ Fits w k) ∧ ks.Pairwise (Precedes w) ∧ keywords word = ks.take 3 ∧
      (∀ k ∈ keywords word, ∀ l, Fits w l → l ∉ keywords word → Precedes w k l) ∧
      (keywords word).Nodup ∧
      ∀ k ∈ keywords word, k.spelling ≠ w ∧ k ≠ .lib ∧ k ≠ .libext ∧ k ≠ .archivo := by
  have htake : keywords word = (ranked (Text.LetterCase.lower word)).take 3 :=
    keywords_eq_take word
  refine ⟨_, ranked _, rfl, fun k => mem_ranked, pairwise_ranked, htake, ?_, ?_, ?_⟩
  · intro k hk l hfits hl
    rw [htake] at hk hl
    exact rel_of_mem_take pairwise_ranked hk (mem_ranked.2 hfits) hl
  · rw [htake]
    exact (pairwise_ranked.imp Precedes.ne).take
  · intro k hk
    rw [htake] at hk
    obtain ⟨hallowed, hother, -⟩ := mem_ranked.1 (List.mem_of_mem_take hk)
    refine ⟨hother, ?_⟩
    revert hallowed
    cases k <;> decide

/-! ## Questions -/

/-- The question whether a reserved word was meant. -/
def question (k : Keyword) : String := s!"Did you mean '{k.spelling}'?"

/-- The reserved words to ask about where a statement should start, if they are to open one: the
first three of those that fit and do. -/
def openers (word : String) : List Keyword :=
  ((ranked (Text.LetterCase.lower word)).filter (·.startsStatement)).take limit

theorem question_injective : Function.Injective question := by
  intro k l h
  have hlists := congrArg String.toList h
  simp only [question, String.toList_append, toString] at hlists
  exact Keyword.spelling_injective
    (String.toList_inj.1 (List.append_cancel_left (List.append_cancel_right hlists)))

theorem questions_eq {found : Token} (h : found.kind = .identifier) :
    questions found = (keywords found.lexeme).map question := if_pos h

/-- Among the first `n` elements of an ordered list are those that fewer than `n` come before. -/
theorem mem_take_iff_countP_lt {α : Type} {R : α → α → Prop} [DecidableRel R] {xs : List α}
    {n : Nat} {x : α} (h : xs.Pairwise R) (hirrefl : ∀ y, ¬R y y) (hasymm : ∀ y z, R y z → ¬R z y)
    (hx : x ∈ xs) : x ∈ xs.take n ↔ xs.countP (R · x) < n := by
  obtain ⟨before, after, rfl⟩ := List.append_of_mem hx
  obtain ⟨-, hafter, hbefore⟩ := List.pairwise_append.1 h
  have hcount : (before ++ x :: after).countP (R · x) = before.length := by
    have hfront : before.countP (R · x) = before.length :=
      List.countP_eq_length.2 fun y hy => by simpa using hbefore y hy x List.mem_cons_self
    have hback : (x :: after).countP (R · x) = 0 := by
      refine List.countP_eq_zero.2 (List.forall_mem_cons.2 ⟨by simpa using hirrefl x, ?_⟩)
      intro y hy
      simpa using hasymm x y (List.rel_of_pairwise_cons hafter hy)
    rw [List.countP_append, hfront, hback, Nat.add_zero]
  have hnot : x ∉ before := fun hmem => hirrefl x (hbefore x hmem x List.mem_cons_self)
  rw [hcount, List.take_append, List.mem_append]
  constructor
  · rintro (hmem | hmem)
    · exact absurd (List.mem_of_mem_take hmem) hnot
    · by_contra hle
      rw [Nat.sub_eq_zero_of_le (Nat.not_lt.1 hle), List.take_zero] at hmem
      cases hmem
  · intro hlt
    obtain ⟨m, hm⟩ := Nat.exists_eq_add_of_lt hlt
    right
    rw [hm, show before.length + m + 1 - before.length = m + 1 by omega, List.take_succ_cons]
    exact List.mem_cons_self

/-- To filter the first `n` elements and to take the first `n` that pass is the same if and only if
the first `n` elements pass. -/
theorem take_eq_take_filter_iff {α : Type} {test : α → Bool} {xs : List α} {n : Nat} :
    xs.take n = (xs.filter test).take n ↔ ∀ x ∈ xs.take n, test x := by
  constructor
  · intro h x hx
    rw [h] at hx
    exact (List.mem_filter.1 (List.mem_of_mem_take hx)).2
  · intro h
    have hfirst : (xs.take n).filter test = xs.take n := List.filter_eq_self.2 h
    calc
      xs.take n = (xs.take n ++ (xs.drop n).filter test).take n := by
        rcases Nat.le_total xs.length n with hlen | hlen
        · rw [List.take_of_length_le hlen, List.drop_of_length_le hlen, List.filter_nil,
            List.append_nil, List.take_of_length_le hlen]
        · rw [List.take_append_of_le_length (by simp [hlen]), List.take_take, Nat.min_self]
      _ = (xs.filter test).take n := by
        conv_rhs => rw [← List.take_append_drop n xs, List.filter_append, hfirst]

/-- About an identifier where a statement should start the first three of the words that fit it are
asked, of whatever kind. A word is asked about if and only if it fits and fewer than three come
before it; and the questions are those about words that open a statement if and only if each of the
first three does. -/
theorem questions_ranked {found : Token} (h : found.kind = .identifier) :
    ∃ (w : String) (ks : List Keyword), w = Text.LetterCase.lower found.lexeme ∧
      (∀ k, k ∈ ks ↔ Fits w k) ∧ ks.Pairwise (Precedes w) ∧
      (SyntaxError.mk .unexpectedExpression found).suggestions = questions found ∧
      questions found = (ks.take 3).map question ∧
      (∀ k, question k ∈ questions found ↔ Fits w k ∧ ks.countP (Precedes w · k) < 3) ∧
      (questions found = (openers found.lexeme).map question ↔
        ∀ k ∈ ks.take 3, k.startsStatement) := by
  have hquestions : questions found =
      ((ranked (Text.LetterCase.lower found.lexeme)).take 3).map question := questions_eq h
  refine ⟨_, ranked _, rfl, fun k => mem_ranked, pairwise_ranked, rfl, hquestions, fun k => ?_, ?_⟩
  · rw [hquestions, List.mem_map_of_injective question_injective, ← mem_ranked]
    constructor
    · intro hk
      have hmem := List.mem_of_mem_take hk
      refine ⟨hmem, ?_⟩
      exact (mem_take_iff_countP_lt pairwise_ranked Precedes.irrefl Precedes.asymm hmem).1 hk
    · rintro ⟨hmem, hcount⟩
      exact (mem_take_iff_countP_lt pairwise_ranked Precedes.irrefl Precedes.asymm hmem).2 hcount
  · rw [hquestions, (List.map_injective_iff.2 question_injective).eq_iff]
    exact take_eq_take_filter_iff

/-- Two words that open a statement are the only ones to fit, and both are asked about. -/
theorem questions_ranked_openers :
    let found : Token := ⟨.identifier, "Tipa", .mk "" 1 1 0⟩
    found.kind = .identifier ∧
      questions found = ["Did you mean 'tipo'?", "Did you mean 'tipos'?"] ∧
      questions found = (openers found.lexeme).map question := by
  intro found
  have hfound : questions found = [question .tipo, question .tipos] := by decide +kernel
  have hidentifier : found.kind = .identifier := rfl
  obtain ⟨w, ks, -, -, -, -, hquestions, -, hopeners⟩ := questions_ranked hidentifier
  have hfirst : ks.take 3 = [.tipo, .tipos] :=
    List.map_injective_iff.2 question_injective (hquestions.symm.trans hfound)
  exact ⟨hidentifier, hfound, hopeners.2 (by rw [hfirst]; decide)⟩

/-- About `ti` three words are asked none of which opens a statement, and one that opens a statement
and fits is left out. So it is false that the questions are those about words that open one. -/
theorem questions_about_others :
    let found : Token := ⟨.identifier, "ti", .mk "<string>" 1 1 0⟩
    questions found = [Keyword.si, .fin, .or].map question ∧
      (∀ k ∈ [Keyword.si, .fin, .or], k.startsStatement = false) ∧
      Fits (Text.LetterCase.lower found.lexeme) .tipo ∧ Keyword.tipo.startsStatement ∧
      openers found.lexeme = [.tipo] ∧
      ¬∀ found : Token, found.kind = .identifier →
        questions found = (openers found.lexeme).map question := by
  intro found
  have hopeners : openers found.lexeme = [.tipo] := by decide +kernel
  have hquestions : questions found = [Keyword.si, .fin, .or].map question := by decide +kernel
  have hranked : Keyword.tipo ∈ ranked (Text.LetterCase.lower found.lexeme) := by decide +kernel
  refine ⟨hquestions, by decide, mem_ranked.1 hranked, rfl, hopeners, fun h => ?_⟩
  have hall := h found rfl
  rw [hquestions, hopeners] at hall
  cases congrArg List.length hall

end SLFront.Suggestion
