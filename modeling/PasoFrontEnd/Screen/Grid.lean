import PasoFrontEnd.Screen.Area
import PasoFrontEnd.Screen.Style

/-!
Grids of cells. A grid is read cell by cell with `get?`; it keeps its size, and what is written
outside it is lost. Every character takes one cell, so a grid is a screen for characters that are
one column wide.
-/

namespace PasoFrontEnd.Screen

/-- A grid, row after row. -/
structure Grid where
  width : Nat
  height : Nat
  cells : Array Cell
  size_cells : cells.size = width * height

namespace Grid

/-- The grid whose cells are all blank. -/
def blank (width height : Nat) : Grid := ⟨width, height, .replicate (width * height) {}, by simp⟩

/-- The cell in column `x` and row `y`. -/
def get? (g : Grid) (x y : Nat) : Option Cell :=
  if x < g.width ∧ y < g.height then g.cells[y * g.width + x]? else none

/-- Changes the cell in column `x` and row `y`. -/
def modify (g : Grid) (x y : Nat) (f : Cell → Cell) : Grid :=
  if x < g.width ∧ y < g.height then
    { g with
      cells := g.cells.modify (y * g.width + x) f
      size_cells := by rw [Array.size_modify, g.size_cells] }
  else g

/-- Writes a character; the cell keeps its style where the given one says nothing. -/
def put (g : Grid) (x y : Nat) (c : Char) (s : Style) : Grid :=
  g.modify x y fun cell => { cell with char := c }.apply s

/-- Applies a style to all cells of an area. -/
def paint (g : Grid) (a : Area) (s : Style) : Grid :=
  let a := a.cut g.width g.height
  (List.range a.height).foldl (fun g j =>
    (List.range a.width).foldl (fun g i => g.modify (a.x + i) (a.y + j) (·.apply s)) g) g

/-- Writes characters from `(x, y)` to the right. -/
def write (g : Grid) (x y : Nat) (cs : List (Char × Style)) : Grid :=
  cs.zipIdx.foldl (fun g ((c, s), i) => g.put (x + i) y c s) g

/-- The rows of a grid. -/
def rows (g : Grid) : List (List Cell) :=
  (List.range g.height).map fun y => (List.range g.width).filterMap fun x => g.get? x y

end Grid

end PasoFrontEnd.Screen
