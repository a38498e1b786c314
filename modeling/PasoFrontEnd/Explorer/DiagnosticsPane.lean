import PasoFrontEnd.Explorer.Scrolling
import PasoFrontEnd.Explorer.Theme
import PasoFrontEnd.SyntaxError
import PasoFrontEnd.LexError

/-!
The pane with the errors: the lexical ones in the order of the text, then the syntax error.
-/

namespace PasoFrontEnd.Explorer

open Screen Theme

structure DiagnosticsPane where
  errors : List LexError
  syntaxError : Option SyntaxError := none
  focused : Bool := false

namespace DiagnosticsPane

def messages (p : DiagnosticsPane) : List String :=
  p.errors.map LexError.message ++ (p.syntaxError.map SyntaxError.message).toList

/-- The offset of the pane when it is drawn with this height. Without errors nothing scrolls. -/
def settle (p : DiagnosticsPane) (height offset : Nat) : Nat :=
  if p.messages.isEmpty then offset
  else clampOffset p.messages.length (visibleRows height) offset

def draw {Canvas : Type} (p : DiagnosticsPane) (t : Toolkit Canvas) (offset : Nat) (area : Rect) :
    Canvas → Canvas :=
  let messages := p.messages
  let f := frame (" Diagnostics (" ++ toString messages.length ++ ") ") p.focused
  if messages.isEmpty then
    t.render (.paragraph { lines := [[⟨"(no errors)", {}⟩]], frame := some f, base := ink green })
      area
  else
    t.render (.rows { f with padding := 1 }
      ((visibleRun messages offset (visibleRows area.height.toNat)).map
        fun (message, _) => (ink red, [⟨message, {}⟩]))) area

end DiagnosticsPane

end PasoFrontEnd.Explorer
