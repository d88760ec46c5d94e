import SLFront.Lexeme
import Mathlib.Tactic.Common

/-!
# Lexemes by their characters

Which lexeme starts a text can be seen from its characters and from the one that follows them: a
symbol is one by itself, a word ends in front of a character that is no part of a word, a number in
front of one that is no digit (`Lexeme.first_symbol`, `Lexeme.first_word`, `Lexeme.first_number`).
-/
namespace SLFront

/-! ## Classes of characters -/

theorem isWordStart_of_isDigit {c : Char} (h : c.isDigit) : isWordStart c = false := by
  have hne : c ≠ '_' := by
    rintro rfl
    cases h
  have halpha : c.isAlpha = false := by
    unfold Char.isDigit at h
    unfold Char.isAlpha Char.isUpper Char.isLower
    grind
  simp [isWordStart, halpha, hne]

theorem isWordPart_of_isWordStart {c : Char} (h : isWordStart c) : isWordPart c := by
  simp only [isWordStart, isWordPart, Char.isAlphanum, Bool.or_eq_true] at *
  grind

theorem isAlpha_of_isLower_toLower {c : Char} (h : c.toLower.isLower) : c.isAlpha := by
  unfold Char.isAlpha
  unfold Char.toLower at h
  split at h
  · rename_i hupper
    have : c.isUpper := by
      unfold Char.isUpper
      simpa using hupper
    rw [this, Bool.true_or]
  · rw [h, Bool.or_true]

/-- What is checked for the ASCII letters one by one holds of every letter. -/
theorem of_isAlpha {P : Char → Prop} (h : ∀ n : Fin 128, (Char.ofNat n).isAlpha → P (Char.ofNat n))
    {c : Char} (hc : c.isAlpha) : P c := by
  have hlt : c.toNat < 128 := by
    unfold Char.isAlpha Char.isUpper Char.isLower at hc
    simp only [Bool.or_eq_true, Bool.and_eq_true, decide_eq_true_eq, UInt32.le_iff_toNat_le,
      ge_iff_le] at hc
    have : c.toNat = c.val.toNat := rfl
    have : 'Z'.val.toNat = 90 := rfl
    have : 'z'.val.toNat = 122 := rfl
    omega
  have hchar := h ⟨c.toNat, hlt⟩
  rw [Char.ofNat_toNat] at hchar
  exact hchar hc

/-- What is spelled in lower case with letters alone is made of letters. -/
theorem isAlpha_of_map_toLower {cs word : List Char} (hword : word.all Char.isLower)
    (h : cs.map Char.toLower = word) : ∀ c ∈ cs, c.isAlpha := by
  intro c hc
  refine isAlpha_of_isLower_toLower (List.all_eq_true.1 hword _ ?_)
  exact h ▸ List.mem_map_of_mem hc

/-- The text is a word. -/
def isWord : List Char → Bool
  | [] => false
  | c :: cs => isWordStart c && cs.all isWordPart

/-- A reserved word in any letter case is a word. -/
theorem isWord_of_spelling {k : Keyword} {cs : List Char}
    (h : k.spelling.toList = cs.map Char.toLower) : isWord cs := by
  have hlower : k.spelling.toList.all Char.isLower := by cases k <;> rfl
  have hne : k.spelling.toList ≠ [] := by cases k <;> decide
  have hstart : ∀ c ∈ cs, isWordStart c := by
    intro c hc
    simp [isWordStart, isAlpha_of_map_toLower hlower h.symm c hc]
  cases cs with
  | nil => exact absurd h hne
  | cons c cs =>
    obtain ⟨hc, hcs⟩ := List.forall_mem_cons.1 hstart
    simp only [isWord, hc, Bool.true_and, List.all_eq_true]
    exact fun x hx => isWordPart_of_isWordStart (hcs x hx)

namespace Lexeme
variable {c : Char} {cs rest : List Char}

theorem takeWhile_append_eq {p : Char → Bool} (hcs : ∀ x ∈ cs, p x)
    (hrest : ∀ x ∈ rest.head?, p x = false) : (cs ++ rest).takeWhile p = cs := by
  rw [List.takeWhile_append_of_pos hcs]
  cases rest with
  | nil => simp
  | cons x xs => rw [List.takeWhile_cons_of_neg (by simp [hrest x rfl]), List.append_nil]

theorem dropWhile_append_eq {p : Char → Bool} (hcs : ∀ x ∈ cs, p x)
    (hrest : ∀ x ∈ rest.head?, p x = false) : (cs ++ rest).dropWhile p = rest := by
  rw [List.dropWhile_append_of_pos hcs]
  cases rest with
  | nil => rfl
  | cons x xs => rw [List.dropWhile_cons_of_neg (by simp [hrest x rfl])]

theorem first_symbol (s : Symbol) (cs : List Char) :
    first s.char cs = ⟨.symbol s, [s.char], cs⟩ := by
  have hn : s.char ≠ '\n' := by cases s <;> decide
  have hs : Symbol.ofChar? s.char = some s := Symbol.ofChar?_eq_some_iff.2 rfl
  simp [first, hn, hs]

theorem ofChar?_of_isWordStart (h : isWordStart c) : Symbol.ofChar? c = none := by
  cases hs : Symbol.ofChar? c with
  | none => rfl
  | some s =>
    obtain rfl := Symbol.ofChar?_eq_some_iff.1 hs
    revert h
    cases s <;> decide

theorem ofChar?_of_isDigit (h : c.isDigit) : Symbol.ofChar? c = none := by
  cases hs : Symbol.ofChar? c with
  | none => rfl
  | some s =>
    obtain rfl := Symbol.ofChar?_eq_some_iff.1 hs
    revert h
    cases s <;> decide

/-- A word ends where a character follows that is no part of a word. -/
theorem first_word (hc : isWordStart c) (hcs : ∀ x ∈ cs, isWordPart x)
    (hrest : ∀ x ∈ rest.head?, isWordPart x = false) :
    first c (cs ++ rest) = ⟨wordKind (c :: cs), c :: cs, rest⟩ := by
  have hn : c ≠ '\n' := by
    rintro rfl
    cases hc
  unfold first
  rw [if_neg hn, ofChar?_of_isWordStart hc, takeWhile_append_eq hcs hrest,
    dropWhile_append_eq hcs hrest]
  simp [hc]

/-- A number ends where a character follows that is no digit. -/
theorem first_number (hc : c.isDigit) (hcs : ∀ x ∈ cs, x.isDigit)
    (hrest : ∀ x ∈ rest.head?, x.isDigit = false) :
    first c (cs ++ rest) = ⟨.number, c :: cs, rest⟩ := by
  have hn : c ≠ '\n' := by
    rintro rfl
    cases hc
  unfold first
  rw [if_neg hn, ofChar?_of_isDigit hc, takeWhile_append_eq hcs hrest,
    dropWhile_append_eq hcs hrest]
  simp [hc, isWordStart_of_isDigit hc]

end Lexeme

end SLFront
