/-!
# Reserved words

The reserved words of SL. They are recognised in any letter case (`Keyword.ofWord?`). Nine of them
open a statement, of which only the two that open a variables block are parsed so far; six name
types; and three may not occur in a program at all.
-/
namespace SLFront

/-- A reserved word. -/
inductive Keyword
  | var | vars | const | constantes | tipos | tipo
  | subrutina | retorna | ref
  | inicio | fin | programa
  | si | sino | mientras | repetir | paso | salir | eval | caso
  | logico | numerico | cadena | registro | vector | matriz
  | and | or | not
  | lib | libext | archivo
deriving DecidableEq, Repr, Inhabited

namespace Keyword

/-- The word in lower case. -/
def spelling : Keyword → String
  | var => "var" | vars => "variables" | const => "const" | constantes => "constantes"
  | tipos => "tipos" | tipo => "tipo"
  | subrutina => "subrutina" | retorna => "retorna" | ref => "ref"
  | inicio => "inicio" | fin => "fin" | programa => "programa"
  | si => "si" | sino => "sino" | mientras => "mientras" | repetir => "repetir"
  | paso => "paso" | salir => "salir" | eval => "eval" | caso => "caso"
  | logico => "logico" | numerico => "numerico" | cadena => "cadena"
  | registro => "registro" | vector => "vector" | matriz => "matriz"
  | and => "and" | or => "or" | not => "not"
  | lib => "lib" | libext => "libext" | archivo => "archivo"

/-- All reserved words: declarations, subroutines, program structure, control flow, types, Boolean
operators, and the forbidden ones. -/
def all : List Keyword :=
  [var, vars, const, constantes, tipos, tipo, subrutina, retorna, ref, inicio, fin, programa,
    si, sino, mientras, repetir, paso, salir, eval, caso, logico, numerico, cadena, registro,
    vector, matriz, and, or, not, lib, libext, archivo]

theorem mem_all (k : Keyword) : k ∈ all := by cases k <;> decide

theorem spelling_injective {k l : Keyword} (h : k.spelling = l.spelling) : k = l := by
  revert h; cases k <;> cases l <;> decide

/-- The name of the word's token type. -/
def name (k : Keyword) : String := k.spelling.toUpper

/-- The reserved word that `word` spells, in any ASCII letter case. -/
def ofWord? (word : List Char) : Option Keyword :=
  all.find? fun k => k.spelling.toList = word.map Char.toLower

theorem ofWord?_eq_some_iff {word : List Char} {k : Keyword} :
    ofWord? word = some k ↔ k.spelling.toList = word.map Char.toLower := by
  constructor
  · intro h
    simpa using List.find?_some h
  · intro h
    have hex : (all.find? fun k => k.spelling.toList = word.map Char.toLower).isSome :=
      List.find?_isSome.2 ⟨k, mem_all k, by simpa using h⟩
    obtain ⟨l, hl⟩ := Option.isSome_iff_exists.1 hex
    have hs : l.spelling.toList = word.map Char.toLower := by simpa using List.find?_some hl
    rw [ofWord?, hl, spelling_injective (String.toList_inj.1 (hs.trans h.symm))]

/-! ## Groups of reserved words -/

/-- The word names a type. -/
def isTypeName : Keyword → Bool
  | logico | numerico | cadena | registro | vector | matriz => true
  | _ => false

/-- The word may not occur in a program. -/
def isForbidden : Keyword → Bool
  | lib | libext | archivo => true
  | _ => false

/-- The word opens a variables block. -/
def opensBlock : Keyword → Bool
  | var | vars => true
  | _ => false

/-- The word opens a statement that is recognised but not parsed. -/
def isPlaceholder : Keyword → Bool
  | const | constantes | retorna | subrutina | tipos | tipo | inicio => true
  | _ => false

/-- The word opens a statement. -/
def startsStatement (k : Keyword) : Bool := k.opensBlock || k.isPlaceholder

end Keyword
end SLFront
