import SLFront.Parser.Expression

/-!
# Parsing variables blocks

A block is its keyword, a line break, and declarations. Each declaration starts on the token after
the line breaks that follow the one before; the block ends at the first token that is no identifier,
or with the first declaration that fails.
-/
namespace SLFront.Parser

/-- Parse the equal sign and the value of a declaration whose last token is the current one. -/
def declarationValue (name : Token) (typeName : Option Token) : Parse (Option Declaration) := do
  let found := (← get).next
  if found.kind = .symbol .assign then
    advance
    advance
    match ← expression Precedence.lowest.level with
    | none => return none
    | some value => return some { name, typeName, value := some value }
  else
    fail .expectedEqualSign found
    return none

/-- Parse the declaration whose name is the current token. -/
def declaration : Parse (Option Declaration) := do
  let s ← get
  if s.next.kind = .symbol .colon then
    advance
    let found := (← get).next
    if found.kind.isTypeName then
      advance
      declarationValue s.current (some found)
    else
      fail .expectedTypeName found
      return none
  else
    declarationValue s.current none

theorem settles_declarationValue (name : Token) (typeName : Option Token) :
    Settles (declarationValue name typeName) := by
  refine settles_get.bind fun s => Settles.ite ?_ ?_
  · refine settles_advance.bind fun _ => settles_advance.bind fun _ =>
      (settles_expression _).bind fun value => ?_
    cases value <;> exact settles_pure _
  · exact (settles_fail _ _).bind fun _ => settles_pure _

theorem settles_declaration : Settles declaration := by
  refine settles_get.bind fun s => Settles.ite ?_ (settles_declarationValue _ _)
  refine settles_advance.bind fun _ => settles_get.bind fun _ => Settles.ite ?_ ?_
  · exact settles_advance.bind fun _ => settles_declarationValue _ _
  · exact (settles_fail _ _).bind fun _ => settles_pure _

theorem alive_of_identifier {s : Parser} (h : s.next.kind = .identifier) : s.Alive := by
  refine .inr fun hn => ?_
  rw [h] at hn
  cases hn

/-- The outcome of `declarations`, with its bound. -/
def boundedDeclarations (s : Parser) : Bounded s.remaining (List Declaration) :=
  if hn : s.next.kind = .identifier then
    have alive := alive_of_identifier hn
    (Bounded.advance s alive).andThen (Nat.sub_le _ _) fun _ s₁ h₁ =>
    have lt₁ := Nat.lt_of_le_pred (remaining_pos alive) h₁
    (Bounded.run declaration settles_declaration s₁).andThen (Nat.le_of_lt lt₁) fun d s₂ h₂ =>
    have lt₂ := Nat.lt_of_le_of_lt h₂ lt₁
    match d with
    | none => ⟨.ok [] s₂, Nat.le_of_lt lt₂⟩
    | some d =>
      (Bounded.run consumeNewlines settles_consumeNewlines s₂).andThen (Nat.le_of_lt lt₂)
        fun _ s₃ h₃ =>
      have lt₃ := Nat.lt_of_le_of_lt h₃ lt₂
      (boundedDeclarations s₃).andThen (Nat.le_of_lt lt₃) fun ds s₄ h₄ =>
      ⟨.ok (d :: ds) s₄, Nat.le_trans h₄ (Nat.le_of_lt lt₃)⟩
  else ⟨.ok [] s, Nat.le_refl _⟩
termination_by s.remaining
decreasing_by exact lt₃

/-- Parse the declarations from the next token on, up to one that fails. -/
def declarations : Parse (List Declaration) := fun s => (boundedDeclarations s).result

/-- As long as an identifier is next there is one more declaration. -/
theorem declarations_eq (s : Parser) :
    declarations s = (if s.next.kind = .identifier then do
        advance
        match ← declaration with
        | none => return []
        | some d =>
          consumeNewlines
          return d :: (← declarations)
      else return [] : Parse (List Declaration)) s := by
  unfold declarations
  rw [boundedDeclarations]
  by_cases hn : s.next.kind = .identifier
  · rw [dif_pos hn, if_pos hn]
    refine Bounded.result_andThen rfl fun _ _ _ => Bounded.result_andThen rfl fun d _ _ => ?_
    cases d with
    | none => rfl
    | some d =>
      exact Bounded.result_andThen rfl fun _ _ _ => Bounded.result_andThen rfl fun _ _ _ => rfl
  · rw [dif_neg hn, if_neg hn]
    rfl

theorem settles_declarations : Settles declarations := fun s => (boundedDeclarations s).remaining_le

/-- Parse the declarations of a block, of which there has to be one. -/
def blockBody (keyword : Token) : Parse Block := do
  consumeNewlines
  let found := (← get).next
  if found.kind = .identifier then
    return { keyword, declarations := ← declarations }
  else
    fail .expectedVarDeclaration found
    return { keyword }

/-- Parse the variables block whose keyword is the current token. A line break that is missing after
the keyword is an error, but the declarations on the line of the keyword are read all the same. -/
def block : Parse Block := do
  let s ← get
  if s.next.kind = .newline then
    blockBody s.current
  else
    report .expectedNewLine s.current
    blockBody s.current

theorem settles_blockBody (keyword : Token) : Settles (blockBody keyword) :=
  settles_consumeNewlines.bind fun _ => settles_get.bind fun _ => Settles.ite
    (settles_declarations.bind fun _ => settles_pure _)
    ((settles_fail _ _).bind fun _ => settles_pure _)

theorem settles_block : Settles block :=
  settles_get.bind fun _ => Settles.ite (settles_blockBody _)
    ((settles_report _ _).bind fun _ => settles_blockBody _)

end SLFront.Parser
