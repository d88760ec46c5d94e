import Mathlib.Data.List.Chain
import SLFront.Proofs.TreeSoundness

/-!
# The layout of declarations

Between two declarations of a block that follow each other nothing but line breaks stands in the
source text, whatever errors it has (`parse_adjoins`). There may be none: the parser skips the line
breaks behind a declaration and goes on where a name is next, whether or not it has skipped any. So
two declarations on one line are read as if they stood on two, and no error is recorded
(`parse_of_adjoining`).
-/
namespace SLFront

/-- The one declaration is spelled right behind the other, but for line breaks. -/
def Declaration.Adjoins (ts : List Token) (d d' : Declaration) : Prop :=
  ∃ us breaks vs, us ++ breaks ++ vs <:+: ts ∧ d.SpelledBy us ∧ d'.SpelledBy vs ∧
    ∀ x ∈ breaks, x.kind = .newline

namespace Declaration.Adjoins
variable {ts us : List Token} {d d' : Declaration}

theorem mono (h : Adjoins ts d d') (hts : ts <:+: us) : Adjoins us d d' := by
  obtain ⟨vs, breaks, ws, hinfix, hrest⟩ := h
  exact ⟨vs, breaks, ws, hinfix.trans hts, hrest⟩

end Declaration.Adjoins

namespace Parser
variable {s t : Parser}

/-- The declarations that are found are spelled one behind the other, from the next token on. -/
theorem YieldsDeclarations.isChain {ds : List Declaration} (h : YieldsDeclarations s ds t) :
    ∃ us es, s.Passage us es t ∧ ds.IsChain (Declaration.Adjoins us) ∧
      ∀ d ∈ ds.head?, ∃ vs ws, us = vs ++ ws ∧ d.SpelledBy vs := by
  induction h with
  | stop => exact ⟨[], [], .refl _, .nil, by simp⟩
  | failed _ h₁ hf =>
    obtain ⟨us, e, hus, -⟩ := hf.exists_error
    exact ⟨_, _, (Passage.of_advance h₁).trans hus, .nil, by simp⟩
  | @cons s s₂ s₃ t d ds ts breaks hd hspell hb hbreaks _ _ ih =>
    obtain ⟨us, es, hus, hchain, hfirst⟩ := ih
    have hsuffix : us <:+: ts ++ breaks ++ us := (List.suffix_append _ us).isInfix
    refine ⟨_, _, (hd.trans hb).trans hus, List.isChain_cons.2 ⟨fun d' hd' => ?_, ?_⟩, ?_⟩
    · obtain ⟨vs, ws, rfl, hspell'⟩ := hfirst d' hd'
      exact ⟨ts, breaks, vs, ⟨[], ws, by simp⟩, hspell, hspell', hbreaks⟩
    · exact hchain.imp fun _ _ hadjoins => hadjoins.mono hsuffix
    · rintro _ ⟨⟩
      exact ⟨ts, breaks ++ us, List.append_assoc .., hspell⟩

theorem YieldsBlock.isChain {b : Block} (h : YieldsBlock s b t) :
    ∃ us es, s.Passage us es t ∧
      b.declarations.IsChain (Declaration.Adjoins (s.current :: us)) := by
  cases h with
  | @declared breaks u _ ds hb _ _ rest =>
    obtain ⟨us, es, hus, hchain, -⟩ := rest.isChain
    have hsuffix : us <:+: s.current :: (breaks ++ us) :=
      (List.suffix_append (s.current :: breaks) us).isInfix
    exact ⟨_, _, hb.trans hus, hchain.imp fun _ _ hadjoins => hadjoins.mono hsuffix⟩
  | undeclared hb _ hf =>
    obtain ⟨vs, hvs, -⟩ := fail_eq_ok hf
    exact ⟨_, _, hb.trans hvs, .nil⟩

theorem YieldsBlocks.isChain {bs : List Block} (h : YieldsBlocks s bs t) :
    ∃ us, s.cursor.Reads us t.cursor ∧
      ∀ b ∈ bs, b.declarations.IsChain (Declaration.Adjoins (s.current :: us)) := by
  obtain ⟨us, -, hus, -, hchain⟩ := h.of_parts
    (P := fun ts _ bs _ => ∀ b ∈ bs, b.declarations.IsChain (Declaration.Adjoins ts))
    (fun _ _ => by simp) (fun hb _ => by simpa using hb.isChain)
    fun hbs hcs => List.forall_mem_append.2
      ⟨fun b hb => (hbs b hb).imp fun _ _ h => h.mono (List.prefix_append ..).isInfix,
        fun b hb => (hcs b hb).imp fun _ _ h => h.mono (List.suffix_append ..).isInfix⟩
  exact ⟨us, hus, hchain⟩

end Parser

/-! ## Source texts -/

variable {source filename : String} {ts : List Token}

/-- Whatever errors a source text has, the declarations of a block are spelled one behind the other,
and nothing but line breaks stands between them. -/
theorem parse_adjoins (h : tokenize source filename = .ok ts) :
    ∃ bs es, parse source filename = .ok (bs, es) ∧
      ∀ b ∈ bs, b.declarations.IsChain (Declaration.Adjoins ts) := by
  obtain ⟨s, t, bs, hupcoming, -, hstatements, -, hyields, hparse⟩ := exists_run_of_tokenize h
  obtain ⟨-, -, -, hrecorded, -⟩ := hyields.reads
  rw [hstatements, List.nil_append] at hrecorded
  obtain ⟨us, hreads, hchain⟩ := hyields.isChain
  refine ⟨bs, t.errors, by rw [hparse, hrecorded], fun b hb => (hchain b hb).imp ?_⟩
  rintro d d' ⟨xs, breaks, ys, hinfix, hspell, hspell', hbreaks⟩
  refine ⟨xs, breaks, ys, hupcoming.isInfix hreads hinfix ?_, hspell, hspell', hbreaks⟩
  refine ne_endOfInput_of_isBoundary ?_
  simp only [List.forall_mem_append]
  exact ⟨⟨hspell.isBoundary_eq_false, isBoundary_of_newlines hbreaks⟩, hspell'.isBoundary_eq_false⟩

theorem parse_adjoins_unexpected :
    let source := "var\n x = 1 y = x\n\n z = 2 3\nvar"
    ∃ ts bs es, tokenize source = .ok ts ∧ parse source = .ok (bs, es) ∧
      bs.map (fun b => b.declarations.length) = [3, 0] ∧
      ∀ b ∈ bs, b.declarations.IsChain (Declaration.Adjoins ts) := by
  intro source
  obtain ⟨ts, hts⟩ : ∃ ts, tokenize source = .ok ts := exists_tokens (by decide +kernel)
  have hlengths : (parse source).toOption.map
      (fun r => r.1.map (fun b => b.declarations.length)) = some [3, 0] := by
    decide +kernel
  obtain ⟨bs, es, hparse, hchain⟩ := parse_adjoins hts
  rw [hparse] at hlengths
  exact ⟨ts, bs, es, hts, hparse, Option.some.inj hlengths, hchain⟩

/-- Two declarations are read without an error, whether or not there is a line break between
them. -/
theorem parse_of_adjoining {keyword e : Token} {breaks us between vs after : List Token}
    {d d' : Declaration} (hk : keyword.kind.opensBlock) (hne : breaks ≠ [])
    (hbreaks : ∀ x ∈ breaks, x.kind = .newline) (hd : d.SpelledBy us)
    (hbetween : ∀ x ∈ between, x.kind = .newline) (hd' : d'.SpelledBy vs)
    (hafter : ∀ x ∈ after, x.kind = .newline)
    (h : tokenize source filename =
      .ok (keyword :: breaks ++ (us ++ between ++ vs) ++ after ++ [e])) :
    parse source filename = .ok ([⟨keyword, [d, d']⟩], []) := by
  have hblock : Block.SpelledBy ⟨keyword, [d, d']⟩ (keyword :: breaks ++ (us ++ between ++ vs)) :=
    ⟨hk, breaks, _, rfl, hne, hbreaks, .cons hd hbetween (.single hd')⟩
  refine parse_of_allSpelledBy h (.cons hblock ?_)
  have hskip : Block.AllSpelledBy [] (after ++ []) := Block.AllSpelledBy.nil.append hafter
  rwa [List.append_nil] at hskip

/-- The name of a declaration stands right behind the last token of the one before, on the same
line, and the source text has no error. -/
theorem declarations_on_one_line :
    ∃ ts b d d' us, tokenize "var\n  x = 1 y = 2\n" = .ok ts ∧
      parse "var\n  x = 1 y = 2\n" = .ok ([b], []) ∧ b.declarations = [d, d'] ∧
      d.SpelledBy us ∧ us ++ [d'.name] <:+: ts := by
  let token (kind : Token.Kind) (lexeme : String) (line column offset : Int) : Token :=
    ⟨kind, lexeme, ⟨"<string>", line, column, offset⟩⟩
  let keyword := token (.keyword .var) "var" 1 1 0
  let x := token .identifier "x" 2 3 6
  let y := token .identifier "y" 2 9 12
  let one := token .number "1" 2 7 10
  let two := token .number "2" 2 13 16
  let first := [x, token (.symbol .assign) "=" 2 5 8, one]
  let second := [y, token (.symbol .assign) "=" 2 11 14, two]
  have hts : tokenize "var\n  x = 1 y = 2\n" = .ok (keyword :: [token .newline "\n" 1 4 3] ++
      (first ++ [] ++ second) ++ [token .newline "\n" 2 14 17] ++
      [token .endOfInput "" 3 1 18]) := by
    decide +kernel
  have hfirst : Declaration.SpelledBy ⟨x, none, some (.number one)⟩ first :=
    .untyped rfl rfl (.number rfl)
  have hsecond : Declaration.SpelledBy ⟨y, none, some (.number two)⟩ second :=
    .untyped rfl rfl (.number rfl)
  have hnone : ∀ z ∈ ([] : List Token), z.kind = .newline := List.forall_mem_nil _
  have hparse := parse_of_adjoining rfl (List.cons_ne_nil _ _) (List.forall_mem_singleton.2 rfl)
    hfirst hnone hsecond (List.forall_mem_singleton.2 rfl) hts
  exact ⟨_, _, _, _, first, hts, hparse, rfl, hfirst, [keyword, token .newline "\n" 1 4 3], _, rfl⟩

end SLFront
