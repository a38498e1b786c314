import PasoFrontEnd.Explorer.Highlight
import PasoFrontEnd.Explorer.Scrolling
import PasoFrontEnd.Text.Lines
import PasoFrontEnd.Text.Padding

/-!
The pane with the source text. It keeps the current line on one row of the pane, the target, as far
as the text reaches above and below that line.
-/

namespace PasoFrontEnd.Explorer

open Screen Theme

structure SourcePane where
  source : String
  currentLine : Nat
  errorLines : List Nat := []
  focused : Bool := false

namespace SourcePane

/-- Where the pane stands: its offset, and the row for the current line once there is one. -/
structure Scroll where
  offset : Nat := 0
  target : Option Nat := none
deriving DecidableEq, Repr

/-- The row for the current line in a pane of so many rows: the one it had before, or the middle. -/
def targetRow (visible : Nat) (target : Option Nat) : Nat :=
  min (target.getD (visible / 2)) (visible - 1)

/-- The offset that puts a line on a row, as far as the lines above and below it allow. -/
def offsetFor (total visible line row : Nat) : Nat :=
  clampOffset total visible (line - 1 - row)

/-- Where the pane stands when it is drawn with this height. A current line that the text does not
have moves nothing. -/
def settle (p : SourcePane) (height : Nat) (s : Scroll) : Scroll :=
  let visible := visibleRows height
  let total := (Text.lines p.source).length
  let row := targetRow visible s.target
  { offset :=
      if 0 < p.currentLine ∧ p.currentLine ≤ total then offsetFor total visible p.currentLine row
      else s.offset
    target := some row }

def numberStyle (isCurrent isError : Bool) : Style :=
  if isError then boldInk red else if isCurrent then boldInk orange else ink grey

/-- The spans of a line. The current line has a ground of its own; with an error in it, one colour
for all. -/
def content (isCurrent isError : Bool) (line : String) : Line :=
  let spans := Highlight.spans line
  if isCurrent && isError then spans.map ({ · with style := boldInkOn .white red })
  else if isCurrent then spans.patch ground
  else spans

/-- A row of the pane: the number of the line, and the line. -/
def row (p : SourcePane) (line : String) (number : Nat) : Line :=
  let isCurrent : Bool := number = p.currentLine
  let isError := p.errorLines.contains number
  ⟨Text.padLeft 4 (toString number) ++ " ", numberStyle isCurrent isError⟩ ::
    content isCurrent isError line

def draw {Canvas : Type} (p : SourcePane) (t : Toolkit Canvas) (offset : Nat) (area : Rect) :
    Canvas → Canvas :=
  t.render (.paragraph {
    frame := some (frame " Source Code " p.focused)
    lines := (visibleRun (Text.lines p.source) offset (visibleRows area.height.toNat)).map
      fun (line, i) => p.row line (i + 1) }) area

end SourcePane

end PasoFrontEnd.Explorer
