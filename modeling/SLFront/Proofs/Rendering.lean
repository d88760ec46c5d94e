import Mathlib.Data.List.Forall2
import SLFront.Proofs.RenderedText

/-!
# Renderings tell trees apart

From the lines of a rendering the trees can be read back, up to what is not shown of them
(`Node.LooksLike`). The line of a node says what it is and shows its text. The lines of a part stand
deeper than the heading that they are under, so that a part ends where a line is not as deep; and a
part that may be missing has a heading of its own. So the tree in front of some lines is determined
if these go on no deeper (`Expr.looksLike_of_lines` and its like). The text determines the lines, as
long as no name, number, type or operator that is shown contains a line feed. Both together make a
rendering unambiguous (`Node.renderAll_unambiguous`).

Under other nodes a node has the same lines, all deeper by the same number
(`Node.map_deeper_lines`).
-/
namespace SLFront

/-! ## What looks alike -/

/-- The word for the kind in a rendering. -/
def Node.Kind.word : Node.Kind → String
  | block => "VariablesStatement"
  | declaration => "VarDeclaration"
  | identifier => "Identifier"
  | number => "Number"
  | typeName => "Type"
  | prefixOp => "PrefixExpression"
  | infixOp => "InfixExpression"

theorem Node.Kind.word_injective : Function.Injective word := by
  intro k k' h
  cases k <;> cases k' <;> first | rfl | exact absurd h (by decide)

theorem Node.Kind.notMem_word (k : Node.Kind) :
    ' ' ∉ k.word.toList ∧ '\n' ∉ k.word.toList := by
  cases k <;> decide

namespace Expr

/-- The text of the expression itself: its name, its number, or its operator. -/
def shown : Expr → String
  | identifier t | number t | typeName t => t.lexeme
  | prefixOp _ op _ | infixOp _ op _ _ | dangling _ op _ => op

/-- All texts that are shown for the expression. -/
def texts : Expr → List String
  | identifier t | number t | typeName t => [t.lexeme]
  | prefixOp _ op right => op :: right.texts
  | infixOp _ op left right => op :: (left.texts ++ right.texts)
  | dangling _ op left => op :: left.texts

/-- The expressions are of the same kind, show the same text, and have the same operands. -/
inductive LooksLike : Expr → Expr → Prop
  | identifier {t t' : Token} (h : t.lexeme = t'.lexeme) :
    LooksLike (.identifier t) (.identifier t')
  | number {t t' : Token} (h : t.lexeme = t'.lexeme) : LooksLike (.number t) (.number t')
  | typeName {t t' : Token} (h : t.lexeme = t'.lexeme) : LooksLike (.typeName t) (.typeName t')
  | prefixOp {t t' : Token} {op op' : String} {r r' : Expr} (h : op = op')
    (right : LooksLike r r') : LooksLike (.prefixOp t op r) (.prefixOp t' op' r')
  | infixOp {t t' : Token} {op op' : String} {l l' r r' : Expr} (h : op = op')
    (left : LooksLike l l') (right : LooksLike r r') :
    LooksLike (.infixOp t op l r) (.infixOp t' op' l' r')
  | dangling {t t' : Token} {op op' : String} {l l' : Expr} (h : op = op') (left : LooksLike l l') :
    LooksLike (.dangling t op l) (.dangling t' op' l')

end Expr

namespace Declaration

/-- All texts that are shown for the declaration. -/
def texts (d : Declaration) : List String :=
  d.name.lexeme :: ((d.typeName.map (·.lexeme)).toList ++ d.value.elim [] Expr.texts)

/-- The declarations have the same name and, each if it is there, the same type and value. -/
structure LooksLike (d d' : Declaration) : Prop where
  name : d.name.lexeme = d'.name.lexeme
  typeName : d.typeName.map (·.lexeme) = d'.typeName.map (·.lexeme)
  value : Option.Rel Expr.LooksLike d.value d'.value

end Declaration

namespace Node

/-- All texts that are shown for the node: names, numbers, types and operators. -/
def texts : Node → List String
  | expr e => e.texts
  | declaration d => d.texts
  | block b => b.declarations.flatMap Declaration.texts

/-- No text that is shown for the node contains a line feed. -/
def IsFlat (n : Node) : Prop := ∀ text ∈ n.texts, '\n' ∉ text.toList

instance (n : Node) : Decidable n.IsFlat :=
  inferInstanceAs (Decidable (∀ text ∈ n.texts, _))

/-- The nodes are of the same kind, show the same texts, and have the same parts. Which word opens a
block is not shown. -/
inductive LooksLike : Node → Node → Prop
  | expr {e e' : Expr} (h : e.LooksLike e') : LooksLike (.expr e) (.expr e')
  | declaration {d d' : Declaration} (h : d.LooksLike d') :
    LooksLike (.declaration d) (.declaration d')
  | block {b b' : Block} (h : List.Forall₂ Declaration.LooksLike b.declarations b'.declarations) :
    LooksLike (.block b) (.block b')

end Node

/-! ## Lines of nodes -/

section
variable {d d' : Int} {xs ys : List RenderedLine}

/-- The lines go on no deeper than this. -/
def Shallow (d : Int) (xs : List RenderedLine) : Prop := ∀ l ∈ xs.head?, l.depth ≤ d

theorem Shallow.mono (h : Shallow d xs) (hd : d ≤ d') : Shallow d' xs :=
  fun l hl => Int.le_trans (h l hl) hd

theorem shallow_cons {text : String} (hd : d ≤ d') : Shallow d' (⟨d, text⟩ :: xs) := by
  rintro _ ⟨⟩
  exact hd

theorem Shallow.ne_cons {text : String} (h : Shallow d xs) (hd : d < d') :
    xs ≠ ⟨d', text⟩ :: ys := by
  rintro rfl
  exact absurd (h _ rfl) (Int.not_le.2 hd)

/-- If each item starts with a line at the same depth and can be cut off from lines that go on no
deeper, so can a list of items from lines that do not go on as deep. -/
theorem forall₂_of_flatMap {α : Type} {R : α → α → Prop} {lines : α → List RenderedLine}
    (hhead : ∀ a, ∃ text rest, lines a = ⟨d, text⟩ :: rest)
    (hcut : ∀ a b xs ys, Shallow d xs → Shallow d ys → lines a ++ xs = lines b ++ ys →
      R a b ∧ xs = ys) {as bs : List α} (hd : d' < d) (hxs : Shallow d' xs) (hys : Shallow d' ys)
    (h : as.flatMap lines ++ xs = bs.flatMap lines ++ ys) : List.Forall₂ R as bs ∧ xs = ys := by
  have hshallow : ∀ {cs zs}, Shallow d' zs → Shallow d (List.flatMap lines cs ++ zs) := by
    intro cs zs hzs
    cases cs with
    | nil => exact hzs.mono (Int.le_of_lt hd)
    | cons c cs =>
      obtain ⟨text, rest, hc⟩ := hhead c
      rw [List.flatMap_cons, hc]
      exact shallow_cons (Int.le_refl d)
  induction as generalizing bs with
  | nil =>
    cases bs with
    | nil => exact ⟨.nil, h⟩
    | cons b bs =>
      obtain ⟨text, rest, hb⟩ := hhead b
      rw [List.flatMap_cons, hb] at h
      exact absurd h (hxs.ne_cons hd)
  | cons a as ih =>
    cases bs with
    | nil =>
      obtain ⟨text, rest, ha⟩ := hhead a
      rw [List.flatMap_cons, ha] at h
      exact absurd h.symm (hys.ne_cons hd)
    | cons b bs =>
      rw [List.flatMap_cons, List.flatMap_cons, List.append_assoc, List.append_assoc] at h
      obtain ⟨hab, hrest⟩ := hcut a b _ _ (hshallow hxs) (hshallow hys) h
      obtain ⟨htail, heq⟩ := ih hrest
      exact ⟨.cons hab htail, heq⟩

theorem flatMap_eq_of_forall₂ {α β : Type} {R : α → α → Prop} {f : α → List β} {as bs : List α}
    (h : List.Forall₂ R as bs) (hf : ∀ a b, R a b → f a = f b) : as.flatMap f = bs.flatMap f := by
  induction h with
  | nil => rfl
  | cons hab _ ih => rw [List.flatMap_cons, List.flatMap_cons, hf _ _ hab, ih]

end

namespace Expr

/-- The line of the expression itself. -/
def title (e : Expr) : String := e.kind.word ++ " (" ++ e.shown ++ ")"

/-- The lines under the line of the expression. -/
def under (depth : Int) : Expr → List RenderedLine
  | identifier _ | number _ | typeName _ => []
  | prefixOp _ _ right => right.lines (depth + 1)
  | infixOp _ _ left right =>
    ⟨depth + 1, "Left:"⟩ :: left.lines (depth + 2) ++
      ⟨depth + 1, "Right:"⟩ :: right.lines (depth + 2)
  | dangling _ _ left => ⟨depth + 1, "Left:"⟩ :: left.lines (depth + 2)

theorem lines_eq (depth : Int) (e : Expr) : e.lines depth = ⟨depth, e.title⟩ :: e.under depth := by
  cases e <;> rfl

theorem toList_title (e : Expr) :
    e.title.toList = e.kind.word.toList ++ ' ' :: '(' :: (e.shown.toList ++ [')']) := by
  simp [title]

/-- The line of an expression tells its kind and shows its text. -/
theorem title_inj {e f : Expr} (h : e.title = f.title) : e.kind = f.kind ∧ e.shown = f.shown := by
  have hlist := congrArg String.toList h
  rw [toList_title, toList_title] at hlist
  obtain ⟨hkind, hshown⟩ := eq_of_append_cons e.kind.notMem_word.1 f.kind.notMem_word.1 hlist
  refine ⟨Node.Kind.word_injective (String.toList_inj.1 hkind), String.toList_inj.1 ?_⟩
  simpa using hshown

/-- Only expressions show a text beside the word for their kind. -/
theorem title_ne_word (e : Expr) (k : Node.Kind) : e.title ≠ k.word := by
  intro h
  have hspace : ' ' ∈ k.word.toList := by
    rw [← h, toList_title]
    exact List.mem_append_right _ List.mem_cons_self
  exact k.notMem_word.1 hspace

section
variable {e f : Expr} {d : Int} {xs ys : List RenderedLine}

theorem of_lines_append (h : e.lines d ++ xs = f.lines d ++ ys) :
    e.kind = f.kind ∧ e.shown = f.shown ∧ e.under d ++ xs = f.under d ++ ys := by
  rw [lines_eq, lines_eq] at h
  obtain ⟨htitle, hunder⟩ := List.cons.inj h
  obtain ⟨hkind, hshown⟩ := title_inj (congrArg RenderedLine.text htitle)
  exact ⟨hkind, hshown, hunder⟩

/-- The expression at the front of lines that go on no deeper is determined. -/
theorem looksLike_of_lines (hxs : Shallow d xs) (hys : Shallow d ys)
    (h : e.lines d ++ xs = f.lines d ++ ys) : e.LooksLike f ∧ xs = ys := by
  induction e generalizing f d xs ys with
  | identifier t | number t | typeName t =>
    obtain ⟨hkind, hshown, h⟩ := of_lines_append h
    cases f <;> cases hkind
    refine ⟨?_, h⟩
    constructor
    exact hshown
  | prefixOp t op right ih =>
    obtain ⟨hkind, hshown, h⟩ := of_lines_append h
    cases f <;> cases hkind
    obtain ⟨hright, hrest⟩ := ih (hxs.mono (by omega)) (hys.mono (by omega)) h
    exact ⟨.prefixOp hshown hright, hrest⟩
  | infixOp t op left right ihl ihr =>
    obtain ⟨hkind, hshown, h⟩ := of_lines_append h
    cases f with
    | infixOp =>
      simp only [under, List.cons_append, List.append_assoc, List.cons.injEq, true_and] at h
      obtain ⟨hleft, h⟩ := ihl (shallow_cons (by omega)) (shallow_cons (by omega)) h
      obtain ⟨hright, h⟩ := ihr (hxs.mono (by omega)) (hys.mono (by omega)) (List.cons.inj h).2
      exact ⟨.infixOp hshown hleft hright, h⟩
    | dangling =>
      -- Then the lines behind the second expression go on with the heading of a right operand.
      simp only [under, List.cons_append, List.append_assoc, List.cons.injEq, true_and] at h
      obtain ⟨-, h⟩ := ihl (shallow_cons (by omega)) (hys.mono (by omega)) h
      exact absurd h.symm (hys.ne_cons (by omega))
    | _ => cases hkind
  | dangling t op left ihl =>
    obtain ⟨hkind, hshown, h⟩ := of_lines_append h
    cases f with
    | infixOp =>
      simp only [under, List.cons_append, List.append_assoc, List.cons.injEq, true_and] at h
      obtain ⟨-, h⟩ := ihl (hxs.mono (by omega)) (shallow_cons (by omega)) h
      exact absurd h (hxs.ne_cons (by omega))
    | dangling =>
      obtain ⟨hleft, h⟩ := ihl (hxs.mono (by omega)) (hys.mono (by omega)) (List.cons.inj h).2
      exact ⟨.dangling hshown hleft, h⟩
    | _ => cases hkind

/-- Expressions that look alike are rendered alike. -/
theorem LooksLike.lines_eq (h : e.LooksLike f) (d : Int) : e.lines d = f.lines d := by
  induction h generalizing d with
  | identifier h | number h | typeName h => simp only [lines, h]
  | prefixOp h _ ih => simp only [lines, h, ih]
  | infixOp h _ _ ihl ihr => simp only [lines, h, ihl, ihr]
  | dangling h _ ih => simp only [lines, h, ih]

end

end Expr

namespace Declaration
variable {c c' : Declaration} {d : Int} {heading : String} {xs ys : List RenderedLine}

/-- The lines go on no deeper than this, and not with a part that has the heading. -/
structure EndsPart (d : Int) (heading : String) (xs : List RenderedLine) : Prop where
  shallow : Shallow d xs
  head : xs.head? ≠ some ⟨d, heading⟩

theorem endsPart_of_shallow {d' : Int} (h : Shallow d xs) (hd : d < d') : EndsPart d' heading xs :=
  ⟨h.mono (Int.le_of_lt hd), fun hhead => absurd (h _ hhead) (Int.not_le.2 hd)⟩

theorem EndsPart.partLines {other : String} (h : EndsPart d other xs) (hne : heading ≠ other)
    (part : Option Expr) : EndsPart d other (partLines d heading part ++ xs) := by
  cases part with
  | none => exact h
  | some e => exact ⟨shallow_cons (Int.le_refl d), by simpa [Declaration.partLines] using hne⟩

/-- A part that may be missing is determined. -/
theorem rel_of_partLines {part part' : Option Expr} (hxs : EndsPart d heading xs)
    (hys : EndsPart d heading ys)
    (h : partLines d heading part ++ xs = partLines d heading part' ++ ys) :
    Option.Rel Expr.LooksLike part part' ∧ xs = ys := by
  cases part with
  | none =>
    cases part' with
    | none => exact ⟨.none, h⟩
    | some f => exact absurd (congrArg List.head? h) hxs.head
  | some e =>
    cases part' with
    | none => exact absurd (congrArg List.head? h).symm hys.head
    | some f =>
      obtain ⟨hpart, hrest⟩ := Expr.looksLike_of_lines (hxs.shallow.mono (by omega))
        (hys.shallow.mono (by omega)) (List.cons.inj h).2
      exact ⟨.some hpart, hrest⟩

theorem rel_map_typeName_iff {type type' : Option Token} :
    Option.Rel Expr.LooksLike (type.map .typeName) (type'.map .typeName) ↔
      type.map (·.lexeme) = type'.map (·.lexeme) := by
  cases type with
  | none => cases type' <;> simp
  | some t =>
    cases type' with
    | none => simp
    | some t' =>
      simp only [Option.map_some, Option.rel_some_some, Option.some.injEq]
      exact ⟨fun h => by cases h; assumption, .typeName⟩

/-- The declaration at the front of lines that go on no deeper is determined. -/
theorem looksLike_of_lines (hxs : Shallow d xs) (hys : Shallow d ys)
    (h : c.lines d ++ xs = c'.lines d ++ ys) : c.LooksLike c' ∧ xs = ys := by
  have hends : ∀ {zs heading}, Shallow d zs → EndsPart (d + 1) heading zs :=
    fun hzs => endsPart_of_shallow hzs (by omega)
  simp only [lines, List.cons_append, List.append_assoc] at h
  obtain ⟨hname, h⟩ := rel_of_partLines
    (((hends hxs).partLines (by decide) _).partLines (by decide) _)
    (((hends hys).partLines (by decide) _).partLines (by decide) _) (List.cons.inj h).2
  obtain ⟨htype, h⟩ := rel_of_partLines ((hends hxs).partLines (by decide) _)
    ((hends hys).partLines (by decide) _) h
  obtain ⟨hvalue, h⟩ := rel_of_partLines (hends hxs) (hends hys) h
  cases hname with
  | some hname =>
    cases hname with
    | identifier hlexeme => exact ⟨⟨hlexeme, rel_map_typeName_iff.1 htype, hvalue⟩, h⟩

theorem partLines_eq_of_rel {part part' : Option Expr} (h : Option.Rel Expr.LooksLike part part') :
    partLines d heading part = partLines d heading part' := by
  cases h with
  | none => rfl
  | some h => rw [partLines, partLines, h.lines_eq]

/-- Declarations that look alike are rendered alike. -/
theorem LooksLike.lines_eq (h : c.LooksLike c') (d : Int) : c.lines d = c'.lines d := by
  rw [lines, lines, partLines_eq_of_rel (.some (.identifier h.name)),
    partLines_eq_of_rel (rel_map_typeName_iff.2 h.typeName), partLines_eq_of_rel h.value]

end Declaration

namespace Block
variable {b b' : Block} {d : Int} {xs ys : List RenderedLine}

/-- The block at the front of lines that go on no deeper is determined. -/
theorem looksLike_of_lines (hxs : Shallow d xs) (hys : Shallow d ys)
    (h : b.lines d ++ xs = b'.lines d ++ ys) :
    List.Forall₂ Declaration.LooksLike b.declarations b'.declarations ∧ xs = ys :=
  forall₂_of_flatMap (fun _ => ⟨_, _, rfl⟩) (fun _ _ _ _ => Declaration.looksLike_of_lines)
    (by omega) hxs hys (List.cons.inj h).2

end Block

namespace Node
variable {m n : Node} {d : Int} {xs ys : List RenderedLine}

/-- The line of the node itself. -/
def title : Node → String
  | expr e => e.title
  | declaration _ => Kind.declaration.word
  | block _ => Kind.block.word

theorem exists_lines (d : Int) (n : Node) : ∃ rest, n.lines d = ⟨d, n.title⟩ :: rest := by
  cases n with
  | expr e => exact ⟨_, e.lines_eq d⟩
  | declaration | block => exact ⟨_, rfl⟩

theorem title_eq_of_append (h : m.lines d ++ xs = n.lines d ++ ys) : m.title = n.title := by
  obtain ⟨rest, hm⟩ := m.exists_lines d
  obtain ⟨rest', hn⟩ := n.exists_lines d
  rw [hm, hn] at h
  exact congrArg RenderedLine.text (List.cons.inj h).1

/-- The node at the front of lines that go on no deeper is determined. -/
theorem looksLike_of_lines (hxs : Shallow d xs) (hys : Shallow d ys)
    (h : m.lines d ++ xs = n.lines d ++ ys) : m.LooksLike n ∧ xs = ys := by
  have hne : Kind.declaration.word ≠ Kind.block.word := by decide
  cases m with
  | expr e =>
    cases n with
    | expr f =>
      obtain ⟨hlooks, hrest⟩ := Expr.looksLike_of_lines hxs hys h
      exact ⟨.expr hlooks, hrest⟩
    | declaration => exact absurd (title_eq_of_append h) (e.title_ne_word .declaration)
    | block => exact absurd (title_eq_of_append h) (e.title_ne_word .block)
  | declaration =>
    cases n with
    | expr f => exact absurd (title_eq_of_append h.symm) (f.title_ne_word .declaration)
    | declaration =>
      obtain ⟨hlooks, hrest⟩ := Declaration.looksLike_of_lines hxs hys h
      exact ⟨.declaration hlooks, hrest⟩
    | block => exact absurd (title_eq_of_append h) hne
  | block =>
    cases n with
    | expr f => exact absurd (title_eq_of_append h.symm) (f.title_ne_word .block)
    | declaration => exact absurd (title_eq_of_append h.symm) hne
    | block =>
      obtain ⟨hlooks, hrest⟩ := Block.looksLike_of_lines hxs hys h
      exact ⟨.block hlooks, hrest⟩

/-- Nodes that look alike are rendered alike. -/
theorem LooksLike.lines_eq (h : m.LooksLike n) (d : Int) : m.lines d = n.lines d := by
  cases h with
  | expr h => exact h.lines_eq d
  | declaration h => exact h.lines_eq d
  | block h =>
    rw [lines, lines, Block.lines, Block.lines,
      flatMap_eq_of_forall₂ h fun _ _ hc => hc.lines_eq (d + 1)]

end Node

/-! ## Depth -/

section
variable (d k : Int)

theorem Expr.map_deeper_lines (e : Expr) : (e.lines d).map (.deeper k) = e.lines (d + k) := by
  induction e generalizing d with
  | identifier | number | typeName => rfl
  | prefixOp t op right ih => simp [lines, ih, Int.add_right_comm d k]
  | infixOp t op left right ihl ihr => simp [lines, ihl, ihr, Int.add_right_comm d k]
  | dangling t op left ih => simp [lines, ih, Int.add_right_comm d k]

theorem Declaration.map_deeper_lines (c : Declaration) :
    (c.lines d).map (.deeper k) = c.lines (d + k) := by
  have hpart : ∀ d heading part, (partLines d heading part).map (.deeper k) =
      partLines (d + k) heading part := by
    intro d heading part
    cases part with
    | none => rfl
    | some e => simp [partLines, Expr.map_deeper_lines, Int.add_right_comm d k]
  simp [lines, hpart, Int.add_right_comm d k]

theorem Node.map_deeper_lines (n : Node) : (n.lines d).map (.deeper k) = n.lines (d + k) := by
  cases n with
  | expr e => exact e.map_deeper_lines d k
  | declaration c => exact c.map_deeper_lines d k
  | block b =>
    simp [lines, Block.lines, Declaration.map_deeper_lines, List.map_flatMap,
      Int.add_right_comm d k]

end

/-! ## Lines without line feeds -/

/-- What starts with the word for a kind and contains no line feed stands on one line. -/
theorem fitsLine_of_word {text : String} {rest : List Char} (k : Node.Kind)
    (htext : text.toList = k.word.toList ++ rest) (hrest : '\n' ∉ rest) : FitsLine text := by
  rw [FitsLine, htext, List.mem_append, not_or]
  refine ⟨?_, k.notMem_word.2, hrest⟩
  cases k <;> rfl

theorem fitsLine_word (k : Node.Kind) : FitsLine k.word :=
  fitsLine_of_word k (List.append_nil _).symm List.not_mem_nil

namespace Expr
variable {e : Expr} {d : Int}

theorem fitsLine_title (he : '\n' ∉ e.shown.toList) : FitsLine e.title :=
  fitsLine_of_word e.kind e.toList_title (by simpa using he)

theorem isPlain_of_mem (hd : 0 ≤ d) (he : ∀ text ∈ e.texts, '\n' ∉ text.toList) :
    ∀ l ∈ e.lines d, l.IsPlain := by
  have hleft : FitsLine "Left:" := by decide
  have hright : FitsLine "Right:" := by decide
  induction e generalizing d with
  | identifier t | number t | typeName t =>
    have ht := he t.lexeme List.mem_cons_self
    rw [lines_eq, under]
    exact List.forall_mem_singleton.2 ⟨hd, fitsLine_title ht⟩
  | prefixOp t op right ih =>
    obtain ⟨hop, he⟩ := List.forall_mem_cons.1 he
    rw [lines_eq, under]
    exact List.forall_mem_cons.2 ⟨⟨hd, fitsLine_title hop⟩, ih (by omega) he⟩
  | infixOp t op left right ihl ihr =>
    obtain ⟨hop, hoperands⟩ := List.forall_mem_cons.1 he
    obtain ⟨hl, hr⟩ := List.forall_mem_append.1 hoperands
    have hheading : 0 ≤ d + 1 := by omega
    rw [lines_eq, under]
    simp only [List.forall_mem_cons, List.cons_append, List.forall_mem_append]
    exact ⟨⟨hd, fitsLine_title hop⟩, ⟨hheading, hleft⟩, ihl (by omega) hl, ⟨hheading, hright⟩,
      ihr (by omega) hr⟩
  | dangling t op left ih =>
    obtain ⟨hop, hl⟩ := List.forall_mem_cons.1 he
    have hheading : 0 ≤ d + 1 := by omega
    rw [lines_eq, under]
    simp only [List.forall_mem_cons]
    exact ⟨⟨hd, fitsLine_title hop⟩, ⟨hheading, hleft⟩, ih (by omega) hl⟩

end Expr

namespace Declaration
variable {c : Declaration} {d : Int}

theorem isPlain_of_mem_partLines {heading : String} {part : Option Expr} (hd : 0 ≤ d)
    (hheading : FitsLine heading) (hpart : ∀ e ∈ part, ∀ text ∈ e.texts, '\n' ∉ text.toList) :
    ∀ l ∈ partLines d heading part, l.IsPlain := by
  cases part with
  | none => exact List.forall_mem_nil _
  | some e =>
    exact List.forall_mem_cons.2 ⟨⟨hd, hheading⟩, Expr.isPlain_of_mem (by omega) (hpart e rfl)⟩

theorem isPlain_of_mem (hd : 0 ≤ d) (hc : ∀ text ∈ c.texts, '\n' ∉ text.toList) :
    ∀ l ∈ c.lines d, l.IsPlain := by
  have hpart : 0 ≤ d + 1 := by omega
  simp only [texts, List.forall_mem_cons, List.forall_mem_append] at hc
  obtain ⟨hname, htype, hvalue⟩ := hc
  simp only [lines, List.cons_append, List.append_assoc, List.forall_mem_cons,
    List.forall_mem_append]
  refine ⟨⟨hd, fitsLine_word .declaration⟩, isPlain_of_mem_partLines hpart (by decide) ?_,
    isPlain_of_mem_partLines hpart (by decide) ?_, isPlain_of_mem_partLines hpart (by decide) ?_⟩
  · rintro _ ⟨⟩
    exact List.forall_mem_singleton.2 hname
  · intro e he
    obtain ⟨t, ht, rfl⟩ := Option.map_eq_some_iff.1 he
    refine List.forall_mem_singleton.2 (htype _ ?_)
    simp [ht]
  · intro e he text htext
    refine hvalue text ?_
    rw [Option.mem_def.1 he]
    exact htext

end Declaration

theorem Node.isPlain_of_mem {n : Node} {d : Int} (hd : 0 ≤ d) (hn : n.IsFlat) :
    ∀ l ∈ n.lines d, l.IsPlain := by
  cases n with
  | expr e => exact Expr.isPlain_of_mem hd hn
  | declaration c => exact Declaration.isPlain_of_mem hd hn
  | block b =>
    refine List.forall_mem_cons.2 ⟨⟨hd, fitsLine_word .block⟩, fun l hl => ?_⟩
    obtain ⟨c, hc, hl⟩ := List.mem_flatMap.1 hl
    refine Declaration.isPlain_of_mem (by omega) (fun text htext => hn text ?_) l hl
    exact List.mem_flatMap.2 ⟨c, hc, htext⟩

namespace Node

theorem toList_render (d : Int) (n : Node) :
    (n.render d).toList = (n.lines d).flatMap (·.render.toList) := by
  rw [render, String.toList_join, List.flatMap_map]

theorem toList_renderAll (ns : List Node) :
    (renderAll ns).toList = (ns.flatMap (lines 0)).flatMap (·.render.toList) := by
  simp only [renderAll, String.toList_join, List.flatMap_map, toList_render, List.flatMap_assoc]

/-- If no text that is shown contains a line feed, two lists of nodes have the same rendering if and
only if they have the same length and look alike one by one; and at any depth a node is rendered as
at the top, with two spaces a level in front of every line. -/
theorem renderAll_unambiguous :
    (∀ ms ns : List Node, (∀ n ∈ ms ++ ns, n.IsFlat) →
      (renderAll ms = renderAll ns ↔ List.Forall₂ LooksLike ms ns)) ∧
    ∀ n : Node, n.IsFlat → ∀ d : Nat, (n.render d).toList =
      withMargin (List.replicate (2 * d) ' ') true (n.render 0).toList := by
  refine ⟨fun ms ns hflat => ⟨fun h => ?_, fun h => ?_⟩, fun n hn d => ?_⟩
  · obtain ⟨hms, hns⟩ := List.forall_mem_append.1 hflat
    have hplain : ∀ {ks : List Node}, (∀ n ∈ ks, n.IsFlat) →
        ∀ l ∈ ks.flatMap (lines 0), l.IsPlain := by
      intro ks hks l hl
      obtain ⟨n, hn, hl⟩ := List.mem_flatMap.1 hl
      exact isPlain_of_mem (Int.le_refl 0) (hks n hn) l hl
    have htext := congrArg String.toList h
    rw [toList_renderAll, toList_renderAll] at htext
    have hlines := RenderedLine.eq_of_flatMap (hplain hms) (hplain hns) htext
    have hnil : Shallow (-1) [] := by simp [Shallow]
    refine (forall₂_of_flatMap (d := 0) (fun n => ⟨n.title, n.exists_lines 0⟩)
      (fun _ _ _ _ => looksLike_of_lines) (by decide) hnil hnil ?_).1
    rw [List.append_nil, List.append_nil, hlines]
  · rw [← String.toList_inj, toList_renderAll, toList_renderAll,
      flatMap_eq_of_forall₂ h fun _ _ hmn => hmn.lines_eq 0]
  · have hplain := isPlain_of_mem (Int.le_refl 0) hn
    rw [toList_render, toList_render, ← RenderedLine.flatMap_deeper d hplain, map_deeper_lines,
      Int.zero_add]

/-- A type is told from a value that is a type too, and a missing operand from one that is there;
two blocks whose tokens differ look alike. -/
theorem renderAll_unambiguous_parts :
    let name (offset : Int) : Token := ⟨.identifier, "n", .mk "" 1 1 offset⟩
    let typed : Node := .declaration { name := name 0, typeName := some (name 1) }
    let valued : Node := .declaration { name := name 0, value := some (.typeName (name 1)) }
    let waiting : Expr := .dangling (name 2) "Left:" (.number (name 3))
    let whole : Expr := .infixOp (name 2) "Left:" (.number (name 3)) (.number (name 3))
    let block (i : Int) : Node :=
      .block { keyword := name i, declarations := [{ name := name i, value := some waiting }] }
    (∀ n ∈ [typed, valued, .expr waiting, .expr whole, block 4, block 5], n.IsFlat) ∧
      renderAll [typed, .expr waiting] ≠ renderAll [valued, .expr waiting] ∧
      renderAll [typed, .expr waiting] ≠ renderAll [typed, .expr whole] ∧
      renderAll [block 4] = renderAll [block 5] ∧
      ((block 4).render 2).toList =
        withMargin (List.replicate 4 ' ') true ((block 4).render 0).toList := by
  dsimp only
  obtain ⟨hiff, hdepth⟩ := renderAll_unambiguous
  refine ⟨by decide, ?_, ?_, ?_, hdepth _ (by decide) 2⟩
  · rw [Ne, hiff _ _ (by decide), List.forall₂_cons]
    rintro ⟨hlooks, -⟩
    cases hlooks with
    | declaration h => cases h.typeName
  · rw [Ne, hiff _ _ (by decide), List.forall₂_cons, List.forall₂_cons]
    rintro ⟨-, hlooks, -⟩
    cases hlooks with
    | expr h => cases h
  · refine (hiff _ _ (by decide)).2 (.cons (.block (.cons ⟨rfl, rfl, .some ?_⟩ .nil)) .nil)
    exact .dangling rfl (.number rfl)

end Node

end SLFront
