import PasoFrontEnd.Screen.Grid
import PasoFrontEnd.Screen.Wrap

/-!
Widgets on a grid: text in frames, cell by cell.
-/

namespace PasoFrontEnd.Screen

/-- The characters of a line, each with its style. -/
def Line.chars (line : Line) : List (Char × Style) :=
  line.flatMap fun s => s.text.toList.map (·, s.style)

/-- The characters of a border, in the order in which they are drawn. In an area of one row or one
column the later ones stand over the earlier ones. -/
def Area.border (a : Area) : List (Nat × Nat × Char) :=
  let right := a.x + a.width - 1
  let bottom := a.y + a.height - 1
  let column (x : Nat) := (List.range a.height).map fun j => (x, a.y + j, '│')
  let row (y : Nat) := (List.range a.width).map fun i => (a.x + i, y, '─')
  column a.x ++ row a.y ++ column right ++ row bottom ++
    [(right, bottom, '┘'), (right, a.y, '┐'), (a.x, bottom, '└'), (a.x, a.y, '┌')]

namespace Grid

/-- Draws a frame around an area, on its outermost cells. -/
def frame (g : Grid) (a : Area) (f : Frame) : Grid :=
  let a := a.cut g.width g.height
  if a.width = 0 ∨ a.height = 0 then g
  else
    let g := a.border.foldl (fun g (x, y, c) => g.put x y c f.style) g
    g.write (a.x + 1) a.y ((f.title.toList.take (a.width - 2)).map (·, {}))

/-- Writes lines one below the other, cut at the width of the area. -/
def lines (g : Grid) (a : Area) (alignment : Alignment) (text : List (List (Char × Style))) :
    Grid :=
  (text.take a.height).zipIdx.foldl (fun g (cs, j) =>
    let cs := cs.take a.width
    let left := match alignment with
      | .left => a.x
      | .right => a.x + (a.width - cs.length)
    g.write left (a.y + j) cs) g

/-- Draws a paragraph. Its frame has its own style over that of the paragraph, which is over the
inside of the frame again. -/
def paragraph (g : Grid) (a : Area) (p : Paragraph) : Grid :=
  let a := a.cut g.width g.height
  let framed := g.paint a p.base
  let (framed, inside) :=
    match p.frame with
    | none => (framed, a)
    | some f => ((framed.frame a f).paint (f.inside a) p.base, f.inside a)
  let lines := p.lines.map Line.chars
  framed.lines inside p.alignment
    (if p.wraps then lines.flatMap (wrap (fun c => isBreak c.1) inside.width) else lines)

/-- Draws rows inside an area. Each has a style over the whole width, and its text over it. -/
def items (g : Grid) (a : Area) (rows : List (Style × Line)) : Grid :=
  (rows.take a.height).zipIdx.foldl (fun g ((style, line), j) =>
    (g.paint { a with y := a.y + j, height := 1 } style).write a.x (a.y + j)
      (line.chars.take a.width)) g

/-- The toolkit that draws on grids. -/
def toolkit : Toolkit Grid where
  blank width height := .blank width.toNat height.toNat
  split := Rect.split
  render
    | .paragraph p, r, g => g.paragraph r.area p
    | .rows f rows, r, g => (g.frame r.area f).items (f.inside r.area) rows

end Grid

end PasoFrontEnd.Screen
