/-!
# Edit distance

The least number of insertions, deletions and substitutions of single elements that turn one list
into another. It is computed row by row. The row of a list against `ys` holds the distances from the
list to the beginnings of `ys`, the shortest first. Every element that is read gives the next row
(`nextRow`), only the row before it is kept (`lastRow`), and the last entry of the last row is the
distance. The elements are those of the longer list, so that the rows are short.
-/
namespace SLFront.Text
variable {α : Type} [DecidableEq α]

/-- The entries of the next row against `ys`, when `x` is read. The entry to the left of them is
given, and the row above from the column of that entry on. -/
def extendRow (x : α) (left : Nat) : List α → List Nat → List Nat
  | y :: ys, diagonal :: above :: row =>
    let entry := min (min (above + 1) (left + 1)) (diagonal + if x = y then 0 else 1)
    entry :: extendRow x entry ys (above :: row)
  | _, _ => []

/-- The row against `ys` after `x`, from the one after the `n` elements before. -/
def nextRow (ys : List α) (n : Nat) (row : List Nat) (x : α) : List Nat :=
  (n + 1) :: extendRow x (n + 1) ys row

/-- The row against `ys` after all elements, from the one after the first `n`. -/
def lastRow (ys : List α) (n : Nat) (row : List Nat) : List α → List Nat
  | [] => row
  | x :: xs => lastRow ys (n + 1) (nextRow ys n row x) xs

/-- The last entry of the last row against `ys`, when `xs` is read. The first row, before anything
is read, is that of the empty list. -/
def lastEntry (xs ys : List α) : Nat :=
  if ys.isEmpty then xs.length
  else (lastRow ys 0 (List.range (ys.length + 1)) xs).getLastD 0

/-- The least number of single-element edits that turn one of the lists into the other. -/
def editDistance (xs ys : List α) : Nat :=
  if xs.length < ys.length then lastEntry ys xs else lastEntry xs ys

end SLFront.Text
