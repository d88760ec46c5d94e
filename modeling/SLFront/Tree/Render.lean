import SLFront.Tree

/-!
# Rendering syntax trees

A tree is shown with one line for each node and for each heading over a part of a node, indented by
two spaces a level. Names, numbers, types and operators stand in parentheses after the kind.
-/
namespace SLFront

/-- A line of a rendering. -/
structure RenderedLine where
  depth : Int
  text : String
deriving DecidableEq, Repr

/-- Two spaces a level. A depth below zero indents by nothing. -/
def RenderedLine.indent (depth : Int) : String :=
  String.ofList (List.replicate (2 * depth.toNat) ' ')

/-- The line with its indentation and its line feed. -/
def RenderedLine.render (l : RenderedLine) : String := indent l.depth ++ l.text ++ "\n"

/-- The lines of an expression. -/
def Expr.lines (depth : Int) : Expr → List RenderedLine
  | .identifier t => [⟨depth, s!"Identifier ({t.lexeme})"⟩]
  | .number t => [⟨depth, s!"Number ({t.lexeme})"⟩]
  | .typeName t => [⟨depth, s!"Type ({t.lexeme})"⟩]
  | .prefixOp _ op right => ⟨depth, s!"PrefixExpression ({op})"⟩ :: right.lines (depth + 1)
  | .infixOp _ op left right =>
    ⟨depth, s!"InfixExpression ({op})"⟩ ::
      ⟨depth + 1, "Left:"⟩ :: left.lines (depth + 2) ++
      ⟨depth + 1, "Right:"⟩ :: right.lines (depth + 2)
  | .dangling _ op left =>
    ⟨depth, s!"InfixExpression ({op})"⟩ :: ⟨depth + 1, "Left:"⟩ :: left.lines (depth + 2)

/-- A part of a declaration under its heading, if the part is there. -/
def Declaration.partLines (depth : Int) (heading : String) : Option Expr → List RenderedLine
  | none => []
  | some e => ⟨depth, heading⟩ :: e.lines (depth + 1)

/-- The lines of a declaration. -/
def Declaration.lines (depth : Int) (d : Declaration) : List RenderedLine :=
  ⟨depth, "VarDeclaration"⟩ ::
    partLines (depth + 1) "Identifier:" (some (.identifier d.name)) ++
    partLines (depth + 1) "Type:" (d.typeName.map .typeName) ++
    partLines (depth + 1) "Value:" d.value

/-- The lines of a block. -/
def Block.lines (depth : Int) (b : Block) : List RenderedLine :=
  ⟨depth, "VariablesStatement"⟩ :: b.declarations.flatMap (Declaration.lines (depth + 1))

namespace Node

/-- The lines of a node. -/
def lines (depth : Int) : Node → List RenderedLine
  | expr e => e.lines depth
  | declaration d => d.lines depth
  | block b => b.lines depth

/-- The text of a node at some depth. -/
def render (depth : Int) (n : Node) : String :=
  String.join ((n.lines depth).map RenderedLine.render)

/-- The text of a list of trees, one after the other. -/
def renderAll (nodes : List Node) : String := String.join (nodes.map (render 0))

/-- The text of a list of trees, or a remark that there is none. -/
def renderAll? : Option (List Node) → String
  | none => "Null AST"
  | some nodes => renderAll nodes

end Node
end SLFront
