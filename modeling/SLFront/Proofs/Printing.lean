import SLFront.Proofs.Lexemes
import SLFront.Proofs.Spelling

/-!
# Programs written as source text

A tree of a program can be written when its tokens have lexemes that go with their types
(`Block.isWellFormed`). It is written as the lexemes of a spelling, with spaces and line breaks
between them (`Spaced`). There are many ways to do so: parentheses that are not needed, line breaks
where the spelling allows them, any number of spaces. Every well-formed program can be written in
one way at least (`exists_text`).

## Main definitions

* `Token.isWellSpelled` — the lexeme of a token goes with its type.
* `Block.isWellFormed` — the block can be written.
* `Spaced` — words with spaces and line breaks between them.
* `IsTextOf` — the text is one of the ways to write a program.
-/
namespace SLFront

/-! ## Lexemes -/

/-- The lexeme of the token is one that source text has for a token of its type. A reserved word is
written in any letter case. -/
def Token.isWellSpelled (t : Token) : Bool :=
  let cs := t.lexeme.toList
  match t.kind with
  | .newline => cs = ['\n']
  | .symbol s => cs = [s.char]
  | .keyword k => k.spelling.toList = cs.map Char.toLower && !k.isForbidden
  | .identifier => isWord cs && (Keyword.ofWord? cs).isNone
  | .number => !cs.isEmpty && cs.all Char.isDigit
  | .endOfInput | .illegal => false

/-! ## Trees -/

/-- The expression is made of names, numbers and operators, and the operator texts are those of the
tokens. -/
def Expr.isWellFormed : Expr → Bool
  | identifier t => t.kind = .identifier && t.isWellSpelled
  | number t => t.kind = .number && t.isWellSpelled
  | prefixOp t op right =>
    t.kind.opening? = some .operator && t.isWellSpelled && op = t.lexeme && right.isWellFormed
  | infixOp t op left right =>
    t.kind.precedence?.isSome && t.isWellSpelled && op = t.lexeme && left.isWellFormed &&
      right.isWellFormed
  | typeName _ | dangling _ _ _ => false

/-- The declaration has a name and a value, and its type, if it has one, is a type name. -/
def Declaration.isWellFormed (d : Declaration) : Bool :=
  d.name.kind = .identifier && d.name.isWellSpelled &&
    d.typeName.all (fun t => t.kind.isTypeName && t.isWellSpelled) && d.value.any Expr.isWellFormed

/-- The block has a block keyword and at least one declaration. -/
def Block.isWellFormed (b : Block) : Bool :=
  b.keyword.kind.opensBlock && b.keyword.isWellSpelled && !b.declarations.isEmpty &&
    b.declarations.all Declaration.isWellFormed

/-! ## Text -/

/-- The text is the words one after the other. Any spaces may stand between them, and after a word
other than a line break a space or a line break has to follow, unless the text ends. -/
inductive Spaced : List String → List Char → Prop
  | nil : Spaced [] []
  | space {ws : List String} {cs : List Char} (h : Spaced ws cs) : Spaced ws (' ' :: cs)
  | newline {ws : List String} {cs : List Char} (h : Spaced ws cs) :
    Spaced ("\n" :: ws) ('\n' :: cs)
  | word {w : String} {ws : List String} {cs : List Char} (h : Spaced ws cs)
    (hcs : ∀ c ∈ cs.head?, c = ' ' ∨ c = '\n') : Spaced (w :: ws) (w.toList ++ cs)

/-- The text is the program, written in one of the ways in which it can be. -/
def IsTextOf (text : String) (bs : List Block) : Prop :=
  ∃ ts, Block.AllSpelledBy bs ts ∧ (∀ t ∈ ts, t.isWellSpelled) ∧
    Spaced (ts.map Token.lexeme) text.toList

/-! ## A way to write a program -/

namespace Token

/-- A line break. -/
def lineBreak : Token := ⟨.newline, "\n", default⟩

/-- A symbol. -/
def ofSymbol (s : Symbol) : Token := ⟨.symbol s, s.char.toString, default⟩

theorem newline_of_mem_lineBreak : ∀ t ∈ [lineBreak], t.kind = .newline := by
  simp [lineBreak]

theorem isWellSpelled_lineBreak : lineBreak.isWellSpelled := by decide

theorem isWellSpelled_ofSymbol (s : Symbol) : (ofSymbol s).isWellSpelled := by
  simp [isWellSpelled, ofSymbol]

end Token

theorem exists_spaced (ws : List String) : ∃ cs, Spaced ws cs := by
  induction ws with
  | nil => exact ⟨[], .nil⟩
  | cons w ws ih =>
    obtain ⟨cs, hcs⟩ := ih
    exact ⟨w.toList ++ ' ' :: cs, .word (.space hcs) (by simp)⟩

/-- With every operation in parentheses an expression can stand anywhere. -/
theorem Expr.exists_spelling {e : Expr} (h : e.isWellFormed) (p : Int) :
    ∃ ts, e.SpelledBy p ts ∧ ∀ t ∈ ts, t.isWellSpelled := by
  induction e generalizing p with
  | identifier t =>
    simp only [isWellFormed, Bool.and_eq_true, decide_eq_true_eq] at h
    exact ⟨[t], .identifier h.1, by simpa using h.2⟩
  | number t =>
    simp only [isWellFormed, Bool.and_eq_true, decide_eq_true_eq] at h
    exact ⟨[t], .number h.1, by simpa using h.2⟩
  | typeName t => cases h
  | prefixOp t op right ih =>
    simp only [isWellFormed, Bool.and_eq_true, decide_eq_true_eq] at h
    obtain ⟨⟨⟨hk, ht⟩, rfl⟩, hright⟩ := h
    obtain ⟨ts, hts, hall⟩ := ih hright Precedence.unary.level
    exact ⟨t :: ts, .prefixOp hk hts, List.forall_mem_cons.2 ⟨ht, hall⟩⟩
  | infixOp t op left right ihl ihr =>
    simp only [isWellFormed, Bool.and_eq_true, decide_eq_true_eq] at h
    obtain ⟨⟨⟨⟨hk, ht⟩, rfl⟩, hleft⟩, hright⟩ := h
    obtain ⟨q, hq⟩ := Option.isSome_iff_exists.1 hk
    obtain ⟨ls, hls, hlall⟩ := ihl hleft (q.level - 1)
    obtain ⟨rs, hrs, hrall⟩ := ihr hright q.level
    have hlevel := (Token.Kind.level_of_precedence? hq).1
    have hinner : (Expr.infixOp t t.lexeme left right).SpelledBy Precedence.lowest.level
        (ls ++ t :: [] ++ rs) :=
      .infixOp hq (Int.lt_of_lt_of_le (by decide) hlevel) hls (by simp) hrs
    have hl : (Token.ofSymbol .leftParen).kind = .symbol .leftParen := rfl
    have hr : (Token.ofSymbol .rightParen).kind = .symbol .rightParen := rfl
    refine ⟨_, .group hl (List.forall_mem_nil _) hinner hr, ?_⟩
    simp only [List.nil_append, List.cons_append, List.forall_mem_append, List.forall_mem_cons]
    exact ⟨Token.isWellSpelled_ofSymbol _, ⟨⟨hlall, ht, by simp⟩, hrall⟩,
      Token.isWellSpelled_ofSymbol _, by simp⟩
  | dangling t op left => cases h

theorem Declaration.exists_spelling {d : Declaration} (h : d.isWellFormed) :
    ∃ ts, d.SpelledBy ts ∧ ∀ t ∈ ts, t.isWellSpelled := by
  obtain ⟨name, typeName, value⟩ := d
  simp only [isWellFormed, Bool.and_eq_true, decide_eq_true_eq] at h
  obtain ⟨⟨⟨hname, hn⟩, htype⟩, hvalue⟩ := h
  cases value with
  | none => cases hvalue
  | some e =>
    obtain ⟨ts, hts, hall⟩ := Expr.exists_spelling hvalue Precedence.lowest.level
    have ha : (Token.ofSymbol .assign).kind = .symbol .assign := rfl
    have hassign := Token.isWellSpelled_ofSymbol .assign
    cases typeName with
    | none =>
      refine ⟨_, .untyped hname ha hts, ?_⟩
      simp only [List.forall_mem_cons]
      exact ⟨hn, hassign, hall⟩
    | some t =>
      obtain ⟨ht, hspelled⟩ : t.kind.isTypeName ∧ t.isWellSpelled := by simpa using htype
      have hc : (Token.ofSymbol .colon).kind = .symbol .colon := rfl
      refine ⟨_, .typed hname hc ht ha hts, ?_⟩
      simp only [List.forall_mem_cons]
      exact ⟨hn, Token.isWellSpelled_ofSymbol _, hspelled, hassign, hall⟩

theorem Declaration.exists_allSpelling {d : Declaration} {ds : List Declaration}
    (h : ∀ c ∈ d :: ds, c.isWellFormed) :
    ∃ ts, AllSpelledBy (d :: ds) ts ∧ ∀ t ∈ ts, t.isWellSpelled := by
  induction ds generalizing d with
  | nil =>
    obtain ⟨ts, hts, hall⟩ := exists_spelling (h d List.mem_cons_self)
    exact ⟨ts, .single hts, hall⟩
  | cons c ds ih =>
    obtain ⟨hd, hds⟩ := List.forall_mem_cons.1 h
    obtain ⟨ts, hts, hall⟩ := exists_spelling hd
    obtain ⟨us, hus, hall'⟩ := ih hds
    refine ⟨_, .cons hts Token.newline_of_mem_lineBreak hus, ?_⟩
    simp only [List.forall_mem_append]
    exact ⟨⟨hall, by simpa using Token.isWellSpelled_lineBreak⟩, hall'⟩

theorem Block.exists_spelling {b : Block} (h : b.isWellFormed) :
    ∃ ts, b.SpelledBy ts ∧ ∀ t ∈ ts, t.isWellSpelled := by
  obtain ⟨keyword, declarations⟩ := b
  simp only [isWellFormed, Bool.and_eq_true] at h
  obtain ⟨⟨⟨hopens, hkeyword⟩, hne⟩, hds⟩ := h
  cases declarations with
  | nil => cases hne
  | cons d ds =>
    obtain ⟨ts, hts, hall⟩ := Declaration.exists_allSpelling (by simpa using hds)
    refine ⟨keyword :: [.lineBreak] ++ ts, ⟨hopens, [.lineBreak], ts, rfl, by simp,
      Token.newline_of_mem_lineBreak, hts⟩, ?_⟩
    simp only [List.cons_append, List.nil_append, List.forall_mem_cons]
    exact ⟨hkeyword, Token.isWellSpelled_lineBreak, hall⟩

/-- Every well-formed program can be written. -/
theorem exists_text {bs : List Block} (h : ∀ b ∈ bs, b.isWellFormed) :
    ∃ text, IsTextOf text bs := by
  have hspelling : ∃ ts, Block.AllSpelledBy bs ts ∧ ∀ t ∈ ts, t.isWellSpelled := by
    induction bs with
    | nil => exact ⟨[], .nil, by simp⟩
    | cons b bs ih =>
      obtain ⟨hb, hbs⟩ := List.forall_mem_cons.1 h
      obtain ⟨ts, hts, hall⟩ := Block.exists_spelling hb
      obtain ⟨us, hus, hall'⟩ := ih hbs
      refine ⟨ts ++ .lineBreak :: us, .cons hts (.skip (.inl rfl) hus), ?_⟩
      simp only [List.forall_mem_append, List.forall_mem_cons]
      exact ⟨hall, Token.isWellSpelled_lineBreak, hall'⟩
  obtain ⟨ts, hts, hall⟩ := hspelling
  obtain ⟨cs, hcs⟩ := exists_spaced (ts.map Token.lexeme)
  exact ⟨String.ofList cs, ts, hts, hall, by simpa using hcs⟩

end SLFront
