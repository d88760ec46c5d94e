import Mathlib.Data.List.Nodup
import SLFront.Proofs.ProgramReading

/-!
# What becomes of the block keywords

A block keyword opens a block, or an expression was expected where it stands. In the second case it
is the offending token of an error, and recovery goes on behind it: `keyword_opens_no_block` is a
program in which a block disappears that way. Nothing else makes a block disappear: tokens that are
skipped are no block keywords, and the keywords that were read are those of the blocks and those
that an error has taken (`YieldsBlocks.account`). For a source text the blocks stand in the order
of their keywords, and each keyword that is left opens one (`blocks_keywords`); every keyword has
exactly one of the two fates (`keyword_opens_or_is_lost`).
-/
namespace SLFront

/-- The tokens that open a block. -/
def blockKeywords (ts : List Token) : List Token := ts.filter (·.kind.opensBlock)

/-- The block keywords at which an expression was expected. -/
def lostKeywords (es : List SyntaxError) : List Token :=
  blockKeywords ((es.filter (·.kind = .noPrefixFound)).map SyntaxError.token)

section
variable {ts us : List Token} {es fs : List SyntaxError} {t : Token} {e : SyntaxError}

@[simp] theorem blockKeywords_append :
    blockKeywords (ts ++ us) = blockKeywords ts ++ blockKeywords us :=
  List.filter_append ..

@[simp] theorem lostKeywords_append :
    lostKeywords (es ++ fs) = lostKeywords es ++ lostKeywords fs := by
  simp [lostKeywords]

theorem lostKeywords_of_ne (h : e.kind ≠ .noPrefixFound) : lostKeywords [e] = [] := by
  simp [lostKeywords, blockKeywords, h]

theorem mem_lostKeywords :
    t ∈ lostKeywords es ↔ t.kind.opensBlock ∧ ⟨.noPrefixFound, t⟩ ∈ es := by
  simp only [lostKeywords, blockKeywords, List.mem_filter, List.mem_map, decide_eq_true_eq]
  constructor
  · rintro ⟨⟨e, ⟨he, hkind⟩, rfl⟩, hopens⟩
    exact ⟨hopens, hkind ▸ he⟩
  · rintro ⟨hopens, he⟩
    exact ⟨⟨_, ⟨he, rfl⟩, rfl⟩, hopens⟩

theorem count_blockKeywords (h : t.kind.opensBlock) : (blockKeywords ts).count t = ts.count t :=
  List.count_filter h

theorem count_lostKeywords (h : t.kind.opensBlock) :
    (lostKeywords es).count t = es.count ⟨.noPrefixFound, t⟩ := by
  rw [lostKeywords, count_blockKeywords h, List.count_eq_countP, List.countP_map,
    List.countP_filter, List.count_eq_countP]
  refine List.countP_congr fun e _ => ?_
  obtain ⟨kind, token⟩ := e
  simp [and_comm]

/-- There are no block keywords among tokens at which recovery does not stop. -/
theorem blockKeywords_eq_nil (h : ∀ t ∈ ts, t.kind.isBoundary = false) : blockKeywords ts = [] :=
  List.filter_eq_nil_iff.2 fun t ht => by
    simp [Token.Kind.opensBlock_of_isBoundary_eq_false (h t ht)]

theorem blockKeywords_of_newlines (h : ∀ t ∈ ts, t.kind = .newline) : blockKeywords ts = [] :=
  blockKeywords_eq_nil (isBoundary_of_newlines h)

end

/-- The blocks and the errors account for the block keywords among the tokens: those of the blocks
stand in their order, and the others have been taken by errors. -/
structure Account (ts : List Token) (bs : List Block) (es : List SyntaxError) : Prop where
  sublist : (bs.map Block.keyword).Sublist (blockKeywords ts)
  perm : (blockKeywords ts).Perm (bs.map Block.keyword ++ lostKeywords es)

namespace Account
variable {ts us : List Token} {bs cs : List Block} {es fs : List SyntaxError} {b : Block}

theorem of_lost (h : blockKeywords ts = lostKeywords es) : Account ts [] es := by
  constructor
  · simp
  · rw [h]
    rfl

theorem of_block (hb : b.keyword.kind.opensBlock) (h : blockKeywords ts = lostKeywords es) :
    Account (b.keyword :: ts) [b] es := by
  have hkeywords : blockKeywords (b.keyword :: ts) = b.keyword :: lostKeywords es := by
    rw [← h]
    exact List.filter_cons_of_pos (p := fun t : Token => t.kind.opensBlock) hb
  constructor
  · simp [hkeywords]
  · rw [hkeywords]
    rfl

theorem append (h : Account ts bs es) (h' : Account us cs fs) :
    Account (ts ++ us) (bs ++ cs) (es ++ fs) := by
  constructor
  · rw [List.map_append, blockKeywords_append]
    exact h.sublist.append h'.sublist
  · rw [List.map_append, blockKeywords_append, lostKeywords_append]
    refine (h.perm.append h'.perm).trans ?_
    simp only [List.append_assoc]
    refine List.Perm.append_left _ ?_
    rw [← List.append_assoc, ← List.append_assoc]
    exact List.Perm.append_right _ List.perm_append_comm

/-- As often as a block keyword occurs, it opens a block or is taken by an error. -/
theorem count_eq {t : Token} (h : Account ts bs es) (ht : t.kind.opensBlock) :
    ts.count t = bs.countP (·.keyword = t) + es.count ⟨.noPrefixFound, t⟩ := by
  have hcount := h.perm.count_eq t
  rw [List.count_append, count_blockKeywords ht, count_lostKeywords ht] at hcount
  rw [hcount, List.count_eq_countP, List.countP_map]
  rfl

/-- Where no token occurs twice, the blocks are those of the keywords that no error has taken. -/
theorem map_keyword_eq (h : Account ts bs es) (hts : ts.Nodup) :
    bs.map Block.keyword = ts.filter (fun t => t.kind.opensBlock ∧ ⟨.noPrefixFound, t⟩ ∉ es) := by
  have hnodup : (bs.map Block.keyword ++ lostKeywords es).Nodup :=
    h.perm.nodup_iff.1 (hts.filter _)
  have hfree : ∀ t ∈ bs.map Block.keyword, t ∉ lostKeywords es := fun t ht ht' =>
    List.disjoint_of_nodup_append hnodup ht ht'
  have hblocks : (bs.map Block.keyword).filter (· ∉ lostKeywords es) = bs.map Block.keyword :=
    List.filter_eq_self.2 fun t ht => by simpa using hfree t ht
  have hlost : (lostKeywords es).filter (· ∉ lostKeywords es) = [] :=
    List.filter_eq_nil_iff.2 fun t ht => by simpa using ht
  calc
    bs.map Block.keyword = (blockKeywords ts).filter (· ∉ lostKeywords es) := by
      have hsublist := h.sublist.filter (· ∉ lostKeywords es)
      have hperm := h.perm.filter (· ∉ lostKeywords es)
      rw [List.filter_append, hblocks, hlost, List.append_nil] at hperm
      rw [hblocks] at hsublist
      exact hsublist.eq_of_length hperm.length_eq.symm
    _ = ts.filter (fun t => t.kind.opensBlock ∧ ⟨.noPrefixFound, t⟩ ∉ es) := by
      rw [blockKeywords, List.filter_filter]
      refine List.filter_congr fun t _ => ?_
      cases hopens : t.kind.opensBlock <;> simp [mem_lostKeywords, hopens]

end Account

namespace Parser
variable {s t : Parser}

/-- A failure takes the block keyword that it has come upon, if it is one. -/
theorem Fails.keywords {kinds : List SyntaxError.Kind} (h : Fails kinds s t)
    (hkinds : .noPrefixFound ∉ kinds) :
    ∃ us es, s.Passage us es t ∧ blockKeywords (s.current :: us) = lostKeywords es := by
  cases h with
  | @here ts u hu hts hf =>
    obtain ⟨vs, hvs, hskipped, -⟩ := fail_eq_ok hf
    refine ⟨_, _, hu.trans hvs, ?_⟩
    rw [hu.cons_append, blockKeywords_append, blockKeywords_eq_nil hts, ← List.singleton_append,
      blockKeywords_append, blockKeywords_eq_nil hskipped]
    simp [lostKeywords]
  | @ahead kind ts u hk hu hts hf =>
    obtain ⟨vs, hvs, hskipped, -⟩ := fail_eq_ok hf
    refine ⟨_, _, hu.trans hvs, ?_⟩
    have hne : kind ≠ .noPrefixFound := fun h => hkinds (h ▸ hk)
    rw [← List.cons_append, blockKeywords_append, blockKeywords_eq_nil hts,
      blockKeywords_eq_nil hskipped]
    exact (lostKeywords_of_ne (e := ⟨kind, u.next⟩) hne).symm

theorem YieldsDeclarations.keywords {ds : List Declaration} (h : YieldsDeclarations s ds t) :
    ∃ us es, s.Passage us es t ∧ blockKeywords us = lostKeywords es := by
  induction h with
  | stop => exact ⟨[], [], .refl _, rfl⟩
  | failed hn h₁ hf =>
    obtain ⟨us, es, hus, hkeywords⟩ := hf.keywords (by decide)
    refine ⟨_, _, (Passage.of_advance h₁).trans hus, ?_⟩
    rw [current_of_advance h₁] at hkeywords
    exact hkeywords
  | cons hd hspell hb hbreaks _ _ ih =>
    obtain ⟨us, es, hus, hkeywords⟩ := ih
    refine ⟨_, _, (hd.trans hb).trans hus, ?_⟩
    rw [blockKeywords_append, blockKeywords_append, blockKeywords_eq_nil hspell.isBoundary_eq_false,
      blockKeywords_of_newlines hbreaks, hkeywords]
    rfl

theorem lostKeywords_missingBreak (s : Parser) : lostKeywords s.missingBreak = [] := by
  unfold missingBreak
  split
  · rfl
  · exact lostKeywords_of_ne (by simp)

/-- A block takes its keyword, and perhaps one more that an error has come upon. -/
theorem YieldsBlock.keywords {b : Block} (h : YieldsBlock s b t) :
    b.keyword = s.current ∧ ∃ us es, s.Passage us es t ∧ blockKeywords us = lostKeywords es := by
  cases h with
  | declared hb hbreaks _ rest =>
    obtain ⟨us, es, hus, hkeywords⟩ := rest.keywords
    refine ⟨rfl, _, _, hb.trans hus, ?_⟩
    rw [blockKeywords_append, blockKeywords_of_newlines hbreaks, hkeywords, lostKeywords_append,
      lostKeywords_missingBreak]
  | undeclared hb hbreaks hf =>
    obtain ⟨vs, hvs, hskipped, -⟩ := fail_eq_ok hf
    refine ⟨rfl, _, _, hb.trans hvs, ?_⟩
    rw [blockKeywords_append, blockKeywords_of_newlines hbreaks, blockKeywords_eq_nil hskipped,
      lostKeywords_append, lostKeywords_missingBreak, lostKeywords_of_ne (by simp)]

/-- The blocks of a program and its errors account for its block keywords. -/
theorem YieldsBlocks.account {bs : List Block} (h : YieldsBlocks s bs t) :
    ∃ us es, s.cursor.Reads us t.cursor ∧ t.errors = s.errors ++ es ∧
      Account (s.current :: us) bs es := by
  refine h.of_parts (P := fun ts _ bs es => Account ts bs es) (fun hts hes => ?_)
    (fun hb hc => ?_) (fun h h' => h.append h')
  · refine .of_lost ?_
    rw [blockKeywords, lostKeywords, List.filter_eq_nil_iff.2 fun t ht => by simp [hts t ht],
      List.filter_eq_nil_iff.2 fun e he => by simp [hes e he]]
    rfl
  · obtain ⟨hkeyword, us, es, hus, hkeywords⟩ := hb.keywords
    refine ⟨us, es, hus, ?_⟩
    rw [← hkeyword] at hc ⊢
    exact .of_block hc hkeywords

end Parser

/-! ## Source texts -/

/-- The blocks of a source text are those of the block keywords at which no expression was expected,
in source order, each once. -/
theorem blocks_keywords {source filename : String} {ts : List Token}
    (h : tokenize source filename = .ok ts) :
    ∃ bs es, parse source filename = .ok (bs, es) ∧
      bs.map Block.keyword = ts.filter (fun t => t.kind.opensBlock ∧ ⟨.noPrefixFound, t⟩ ∉ es) ∧
      (bs.map Block.keyword).Nodup := by
  obtain ⟨s, t, bs, hupcoming, herrors, hstatements, -, hyields, hparse⟩ :=
    exists_run_of_tokenize h
  obtain ⟨-, -, -, hrecorded, -, hend, -⟩ := hyields.reads
  obtain ⟨us, es, hreads, herrors', haccount⟩ := hyields.account
  obtain ⟨n, hn⟩ := hupcoming.append_replicate hreads hend
  -- Beyond the tokens of the source text only its end was read again.
  have hts : blockKeywords (s.current :: us) = blockKeywords ts := by
    rw [← Parser.current_cursor, hn, blockKeywords_append, List.append_right_eq_self]
    refine List.filter_eq_nil_iff.2 fun x hx => ?_
    rw [(List.mem_replicate.1 hx).2, Parser.current_cursor, hend]
    decide
  have haccount : Account ts bs es := ⟨hts ▸ haccount.sublist, hts ▸ haccount.perm⟩
  rw [hstatements, List.nil_append] at hrecorded
  rw [herrors, List.nil_append] at herrors'
  have hkeywords := haccount.map_keyword_eq (nodup_of_tokenize h)
  refine ⟨bs, es, by rw [hparse, hrecorded, herrors'], hkeywords, ?_⟩
  rw [hkeywords]
  exact (nodup_of_tokenize h).filter _

theorem blocks_keywords_two_errors :
    let source := "var\n x = var y = (1\nvariables 2\nvar\n z = 3"
    ∃ ts, tokenize source = .ok ts ∧ ∃ bs es, parse source = .ok (bs, es) ∧
      bs.map Block.keyword = ts.filter (fun t => t.kind.opensBlock ∧ ⟨.noPrefixFound, t⟩ ∉ es) ∧
      (bs.map Block.keyword).Nodup := by
  intro source
  obtain ⟨ts, hts⟩ : ∃ ts, tokenize source = .ok ts := exists_tokens (by decide +kernel)
  exact ⟨ts, hts, blocks_keywords hts⟩

/-- A block keyword at which an expression was expected opens no block. -/
theorem keyword_opens_no_block :
    ¬ ∀ (source filename : String) (ts : List Token) (bs : List Block) (es : List SyntaxError),
      tokenize source filename = .ok ts → parse source filename = .ok (bs, es) →
        bs.map Block.keyword = ts.filter (·.kind.opensBlock) := by
  intro h
  have hlost : (match tokenize "var\n  x = var\n  y = 1\n", parse "var\n  x = var\n  y = 1\n" with
      | .ok ts, .ok (bs, _) => decide (bs.map Block.keyword = ts.filter (·.kind.opensBlock))
      | _, _ => true) = false := by
    decide +kernel
  split at hlost
  · rename_i hts hbs
    exact of_decide_eq_false hlost (h _ _ _ _ _ hts hbs)
  · cases hlost

/-- Each block keyword of a source text opens exactly one block, or is the offending token of
exactly one error, that an expression was expected there; it is never both. -/
theorem keyword_opens_or_is_lost {source filename : String} {ts : List Token}
    (h : tokenize source filename = .ok ts) :
    ∃ bs es, parse source filename = .ok (bs, es) ∧ ∀ t ∈ ts, t.kind.opensBlock →
      (bs.countP (·.keyword = t) = 1 ∧ es.count ⟨.noPrefixFound, t⟩ = 0 ∨
        bs.countP (·.keyword = t) = 0 ∧ es.count ⟨.noPrefixFound, t⟩ = 1) := by
  obtain ⟨s, t, bs, hupcoming, herrors, hstatements, -, hyields, hparse⟩ :=
    exists_run_of_tokenize h
  obtain ⟨-, -, -, hrecorded, -, hend, -⟩ := hyields.reads
  obtain ⟨us, es, hreads, herrors', haccount⟩ := hyields.account
  rw [hstatements, List.nil_append] at hrecorded
  rw [herrors, List.nil_append] at herrors'
  refine ⟨bs, es, by rw [hparse, hrecorded, herrors'], fun k hk hopens => ?_⟩
  obtain ⟨n, hn⟩ := hupcoming.append_replicate hreads hend
  have honce : (s.current :: us).count k = 1 := by
    have hne : t.current ≠ k := by
      rintro rfl
      exact (Token.Kind.ne_of_opensBlock hopens).2 hend
    rw [← Parser.current_cursor, hn, List.count_append,
      List.count_eq_one_of_mem (nodup_of_tokenize h) hk, List.count_replicate,
      Parser.current_cursor, if_neg (by simpa using hne)]
  rw [haccount.count_eq hopens] at honce
  omega

/-- Of these three block keywords the second is lost, and the third, which stands behind an open
parenthesis, ends the skipping and opens a block. -/
theorem keyword_opens_or_is_lost_value :
    let source := "var\n x = var\n y: 1 + (variables\n z = 2"
    ∃ ts, tokenize source = .ok ts ∧ ∃ bs es, parse source = .ok (bs, es) ∧
      (ts.filter (·.kind.opensBlock)).length = 3 ∧ es.length = 1 ∧
      ∀ t ∈ ts, t.kind.opensBlock →
        (bs.countP (·.keyword = t) = 1 ∧ es.count ⟨.noPrefixFound, t⟩ = 0 ∨
          bs.countP (·.keyword = t) = 0 ∧ es.count ⟨.noPrefixFound, t⟩ = 1) := by
  intro source
  have hcounts : (tokenize source).toOption.map (fun ts => (ts.filter (·.kind.opensBlock)).length) =
      some 3 ∧ (parse source).toOption.map (·.2.length) = some 1 := by
    decide +kernel
  obtain ⟨ts, hts⟩ : ∃ ts, tokenize source = .ok ts := exists_tokens (by decide +kernel)
  obtain ⟨bs, es, hparse, hfate⟩ := keyword_opens_or_is_lost hts
  rw [hts, hparse] at hcounts
  exact ⟨ts, hts, bs, es, hparse, Option.some.inj hcounts.1, Option.some.inj hcounts.2, hfate⟩

end SLFront
