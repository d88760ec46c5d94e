import SLFront.Proofs.Spelling

/-!
# Trees without places

Two texts may say the same and have their tokens at different places. `Token.unplaced` forgets the
place of a token, and `mapTokens` does so throughout a tree. Where tokens spell a tree, other tokens
with the same types and lexemes spell the same tree but for its places
(`Block.AllSpelledBy.exists_of_unplaced`).
-/
namespace SLFront

/-- The token without its place. -/
def Token.unplaced (t : Token) : Token := { t with location := default }

/-- The expression with another token in the place of each. The operator texts stay. -/
def Expr.mapTokens (f : Token → Token) : Expr → Expr
  | identifier t => .identifier (f t)
  | number t => .number (f t)
  | typeName t => .typeName (f t)
  | prefixOp t op right => .prefixOp (f t) op (right.mapTokens f)
  | infixOp t op left right => .infixOp (f t) op (left.mapTokens f) (right.mapTokens f)
  | dangling t op left => .dangling (f t) op (left.mapTokens f)

/-- The declaration with another token in the place of each. -/
def Declaration.mapTokens (f : Token → Token) (d : Declaration) : Declaration where
  name := f d.name
  typeName := d.typeName.map f
  value := d.value.map (Expr.mapTokens f)

/-- The block with another token in the place of each. -/
def Block.mapTokens (f : Token → Token) (b : Block) : Block where
  keyword := f b.keyword
  declarations := b.declarations.map (Declaration.mapTokens f)

section
variable {t u : Token} {ts us : List Token}

theorem Token.kind_eq_of_unplaced (h : u.unplaced = t.unplaced) : u.kind = t.kind := by
  show u.unplaced.kind = t.unplaced.kind
  rw [h]

theorem Token.lexeme_eq_of_unplaced (h : u.unplaced = t.unplaced) : u.lexeme = t.lexeme := by
  show u.unplaced.lexeme = t.unplaced.lexeme
  rw [h]

theorem newlines_of_unplaced (h : us.map Token.unplaced = ts.map Token.unplaced)
    (hts : ∀ t ∈ ts, t.kind = .newline) : ∀ u ∈ us, u.kind = .newline := by
  intro u hu
  have hmem := List.mem_map_of_mem (f := Token.unplaced) hu
  rw [h] at hmem
  obtain ⟨t, ht, htu⟩ := List.mem_map.1 hmem
  rw [← Token.kind_eq_of_unplaced htu, hts t ht]

end

/-! ## The same words at other places -/

theorem Expr.SpelledBy.exists_of_unplaced {p : Int} {e : Expr} {ts : List Token}
    (h : e.SpelledBy p ts) : ∀ us : List Token, us.map Token.unplaced = ts.map Token.unplaced →
      ∃ e' : Expr, e'.SpelledBy p us ∧
        e'.mapTokens Token.unplaced = e.mapTokens Token.unplaced := by
  induction h with
  | identifier ht =>
    intro us hus
    obtain ⟨u, rfl, hu⟩ := List.map_eq_singleton_iff.1 hus
    refine ⟨_, .identifier ((Token.kind_eq_of_unplaced hu).trans ht), ?_⟩
    rw [mapTokens, mapTokens, hu]
  | number ht =>
    intro us hus
    obtain ⟨u, rfl, hu⟩ := List.map_eq_singleton_iff.1 hus
    refine ⟨_, .number ((Token.kind_eq_of_unplaced hu).trans ht), ?_⟩
    rw [mapTokens, mapTokens, hu]
  | prefixOp ht _ ih =>
    intro us hus
    obtain ⟨u, us, rfl, hu, hrest⟩ := List.map_eq_cons_iff.1 hus
    obtain ⟨e', he', hmap⟩ := ih us hrest
    rw [← Token.kind_eq_of_unplaced hu] at ht
    refine ⟨_, .prefixOp ht he', ?_⟩
    rw [mapTokens, mapTokens, hu, hmap, Token.lexeme_eq_of_unplaced hu]
  | group hl hbreaks _ hr ih =>
    intro us hus
    rw [List.map_append, List.map_append] at hus
    obtain ⟨vs, rs, rfl, hvs, hrs⟩ := List.map_eq_append_iff.1 hus
    obtain ⟨ls, us, rfl, hls, hinner⟩ := List.map_eq_append_iff.1 hvs
    obtain ⟨l, breaks, rfl, hul, hbreaks'⟩ := List.map_eq_cons_iff.1 hls
    obtain ⟨r, rfl, hur⟩ := List.map_eq_singleton_iff.1 hrs
    obtain ⟨e', he', hmap⟩ := ih us hinner
    exact ⟨e', .group ((Token.kind_eq_of_unplaced hul).trans hl)
      (newlines_of_unplaced hbreaks' hbreaks) he' ((Token.kind_eq_of_unplaced hur).trans hr), hmap⟩
  | infixOp ht hp _ hbreaks _ ihl ihr =>
    intro us hus
    rw [List.map_append, List.map_append] at hus
    obtain ⟨vs, rs, rfl, hvs, hrs⟩ := List.map_eq_append_iff.1 hus
    obtain ⟨ls, us, rfl, hls, hmid⟩ := List.map_eq_append_iff.1 hvs
    obtain ⟨u, breaks, rfl, hu, hbreaks'⟩ := List.map_eq_cons_iff.1 hmid
    obtain ⟨l, hl, hmapl⟩ := ihl ls hls
    obtain ⟨r, hr, hmapr⟩ := ihr rs hrs
    rw [← Token.kind_eq_of_unplaced hu] at ht
    refine ⟨_, .infixOp ht hp hl (newlines_of_unplaced hbreaks' hbreaks) hr, ?_⟩
    rw [mapTokens, mapTokens, hu, hmapl, hmapr, Token.lexeme_eq_of_unplaced hu]

theorem Declaration.SpelledBy.exists_of_unplaced {d : Declaration} {ts us : List Token}
    (h : d.SpelledBy ts) (hus : us.map Token.unplaced = ts.map Token.unplaced) :
    ∃ d' : Declaration, d'.SpelledBy us ∧
      d'.mapTokens Token.unplaced = d.mapTokens Token.unplaced := by
  cases h with
  | untyped hn ha value =>
    obtain ⟨name, us, rfl, hun, hus⟩ := List.map_eq_cons_iff.1 hus
    obtain ⟨assign, us, rfl, hua, hus⟩ := List.map_eq_cons_iff.1 hus
    obtain ⟨e', he', hmap⟩ := value.exists_of_unplaced us hus
    refine ⟨_, .untyped ((Token.kind_eq_of_unplaced hun).trans hn)
      ((Token.kind_eq_of_unplaced hua).trans ha) he', ?_⟩
    simp [mapTokens, hun, hmap]
  | typed hn hc ht ha value =>
    obtain ⟨name, us, rfl, hun, hus⟩ := List.map_eq_cons_iff.1 hus
    obtain ⟨colon, us, rfl, huc, hus⟩ := List.map_eq_cons_iff.1 hus
    obtain ⟨typeName, us, rfl, hut, hus⟩ := List.map_eq_cons_iff.1 hus
    obtain ⟨assign, us, rfl, hua, hus⟩ := List.map_eq_cons_iff.1 hus
    obtain ⟨e', he', hmap⟩ := value.exists_of_unplaced us hus
    rw [← Token.kind_eq_of_unplaced hut] at ht
    refine ⟨_, .typed ((Token.kind_eq_of_unplaced hun).trans hn)
      ((Token.kind_eq_of_unplaced huc).trans hc) ht
      ((Token.kind_eq_of_unplaced hua).trans ha) he', ?_⟩
    simp [mapTokens, hun, hut, hmap]

theorem Declaration.AllSpelledBy.exists_of_unplaced {ds : List Declaration} {ts : List Token}
    (h : AllSpelledBy ds ts) : ∀ us : List Token, us.map Token.unplaced = ts.map Token.unplaced →
      ∃ ds', AllSpelledBy ds' us ∧
        ds'.map (mapTokens Token.unplaced) = ds.map (mapTokens Token.unplaced) := by
  induction h with
  | single h =>
    intro us hus
    obtain ⟨d', hd', hmap⟩ := h.exists_of_unplaced hus
    exact ⟨[d'], .single hd', by rw [List.map_singleton, hmap, List.map_singleton]⟩
  | cons h hbreaks _ ih =>
    intro us hus
    rw [List.map_append, List.map_append] at hus
    obtain ⟨ws, us, rfl, hws, hrest⟩ := List.map_eq_append_iff.1 hus
    obtain ⟨vs, breaks, rfl, hvs, hbreaks'⟩ := List.map_eq_append_iff.1 hws
    obtain ⟨d', hd', hmap⟩ := h.exists_of_unplaced hvs
    obtain ⟨ds', hds', hmaps⟩ := ih us hrest
    refine ⟨d' :: ds', .cons hd' (newlines_of_unplaced hbreaks' hbreaks) hds', ?_⟩
    rw [List.map_cons, List.map_cons, hmap, hmaps]

theorem Block.SpelledBy.exists_of_unplaced {b : Block} {ts us : List Token} (h : b.SpelledBy ts)
    (hus : us.map Token.unplaced = ts.map Token.unplaced) :
    ∃ b' : Block, b'.SpelledBy us ∧ b'.mapTokens Token.unplaced = b.mapTokens Token.unplaced := by
  obtain ⟨breaks, vs, rfl, hne, hbreaks, hvs⟩ := h.body
  rw [List.map_append] at hus
  obtain ⟨us, vs', rfl, hus, hvs'⟩ := List.map_eq_append_iff.1 hus
  obtain ⟨keyword, breaks', rfl, hkeyword, hbreaks'⟩ := List.map_eq_cons_iff.1 hus
  obtain ⟨ds', hds', hmap⟩ := hvs.exists_of_unplaced vs' hvs'
  have hopens : keyword.kind.opensBlock := by
    rw [Token.kind_eq_of_unplaced hkeyword, h.keyword]
  have hne' : breaks' ≠ [] := by
    rintro rfl
    exact hne (List.map_eq_nil_iff.1 hbreaks'.symm)
  refine ⟨⟨keyword, ds'⟩, ⟨hopens, breaks', vs', rfl, hne',
    newlines_of_unplaced hbreaks' hbreaks, hds'⟩, ?_⟩
  simp [mapTokens, hkeyword, hmap]

/-- Tokens with the types and lexemes of a spelling spell the same blocks at other places. -/
theorem Block.AllSpelledBy.exists_of_unplaced {bs : List Block} {ts : List Token}
    (h : AllSpelledBy bs ts) : ∀ us : List Token, us.map Token.unplaced = ts.map Token.unplaced →
      ∃ bs', AllSpelledBy bs' us ∧
        bs'.map (mapTokens Token.unplaced) = bs.map (mapTokens Token.unplaced) := by
  induction h with
  | nil =>
    intro us hus
    exact ⟨[], List.map_eq_nil_iff.1 hus ▸ .nil, rfl⟩
  | skip ht _ ih =>
    intro us hus
    obtain ⟨u, us, rfl, hu, hrest⟩ := List.map_eq_cons_iff.1 hus
    obtain ⟨bs', hbs', hmap⟩ := ih us hrest
    rw [← Token.kind_eq_of_unplaced hu] at ht
    exact ⟨bs', .skip ht hbs', hmap⟩
  | cons h _ ih =>
    intro us hus
    rw [List.map_append] at hus
    obtain ⟨vs, us, rfl, hvs, hus⟩ := List.map_eq_append_iff.1 hus
    obtain ⟨b', hb', hmap⟩ := h.exists_of_unplaced hvs
    obtain ⟨bs', hbs', hmaps⟩ := ih us hus
    exact ⟨b' :: bs', .cons hb' hbs', by rw [List.map_cons, List.map_cons, hmap, hmaps]⟩

end SLFront
