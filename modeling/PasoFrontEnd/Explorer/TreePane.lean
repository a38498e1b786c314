import PasoFrontEnd.Explorer.Scrolling
import PasoFrontEnd.Explorer.Theme
import PasoFrontEnd.SyntaxError
import PasoFrontEnd.Text.CharClass

/-!
The pane with the outline of the program, or with the reason why there is none.
-/

namespace PasoFrontEnd.Explorer

open Screen Theme

/-- What the pane shows; with a syntax error, no outline. -/
structure TreePane where
  outline : List String
  syntaxError : Option SyntaxError := none
  focused : Bool := false

namespace TreePane

/-- A row of the outline: its indentation, its first word, and the rest of it. -/
def row (line : String) : Line :=
  let indentation := line.toList.takeWhile Text.isBlank
  let rest := line.toList.dropWhile Text.isBlank
  let label := String.ofList (rest.takeWhile (· ≠ ' '))
  let labelStyle := if ["then", "else", "body"].contains label then ink grey else boldInk blue
  [⟨String.ofList indentation, {}⟩, ⟨label, labelStyle⟩,
   ⟨String.ofList (rest.dropWhile (· ≠ ' ')), ink text⟩]

/-- The offset of the pane when it is drawn with this height. Without an outline nothing scrolls. -/
def settle (p : TreePane) (height offset : Nat) : Nat :=
  if p.syntaxError.isSome then offset
  else clampOffset p.outline.length (visibleRows height) offset

def draw {Canvas : Type} (p : TreePane) (t : Toolkit Canvas) (offset : Nat) (area : Rect) :
    Canvas → Canvas :=
  let f := frame " AST " p.focused
  match p.syntaxError with
  | some e =>
    t.render (.paragraph {
      lines := [[⟨"(no tree: parsing failed)", ink grey⟩], [⟨e.message, ink red⟩]]
      frame := some f
      wraps := true }) area
  | none =>
    t.render (.rows { f with padding := 1 }
      ((visibleRun p.outline offset (visibleRows area.height.toNat)).map
        fun (line, _) => ({}, row line))) area

end TreePane

end PasoFrontEnd.Explorer
