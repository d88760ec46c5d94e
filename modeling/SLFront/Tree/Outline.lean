import SLFront.Tree

/-!
# Outlines of syntax trees

The outline of a tree lists its nodes in pre-order, each with its depth below the root.
-/
namespace SLFront

/-- The expression and those inside it, in pre-order. -/
def Expr.outline (depth : Nat) : Expr → List (Nat × Node)
  | e@(.identifier _) | e@(.number _) | e@(.typeName _) => [(depth, .expr e)]
  | e@(.prefixOp _ _ right) => (depth, .expr e) :: right.outline (depth + 1)
  | e@(.infixOp _ _ left right) =>
    (depth, .expr e) :: left.outline (depth + 1) ++ right.outline (depth + 1)
  | e@(.dangling _ _ left) => (depth, .expr e) :: left.outline (depth + 1)

/-- The declaration and the expressions inside it, in pre-order. -/
def Declaration.outline (depth : Nat) (d : Declaration) : List (Nat × Node) :=
  (depth, .declaration d) :: d.children.flatMap (Expr.outline (depth + 1))

/-- The block and everything inside it, in pre-order. -/
def Block.outline (depth : Nat) (b : Block) : List (Nat × Node) :=
  (depth, .block b) :: b.declarations.flatMap (Declaration.outline (depth + 1))

namespace Node

/-- The node and those under it, in pre-order. -/
def outline (depth : Nat) : Node → List (Nat × Node)
  | expr e => e.outline depth
  | declaration d => d.outline depth
  | block b => b.outline depth

end Node
end SLFront
