import PasoFrontEnd.Explorer.Theme
import PasoFrontEnd.Word

/-!
The status bar: on the left the selected token and the last message, on the right what the keys do
and how many errors there are.
-/

namespace PasoFrontEnd.Explorer

open Screen Theme

/-- What the bar shows. -/
structure StatusBar where
  message : String
  selected : Nat
  tokens : Nat
  errors : Nat

namespace StatusBar

/-- Writing on the ground of the bar. -/
def plain : Style := inkOn text raised

/-- A mark between two parts of the bar. -/
def separator : Style := inkOn grey raised

/-- A key and what it does, with a line behind them. -/
def hint (key action : String) : Line :=
  [⟨key, inkOn .black grey⟩, ⟨" " ++ action ++ " ", plain⟩, ⟨"│", separator⟩]

def left (b : StatusBar) : Line :=
  [⟨" Token " ++ toString (Word.add b.selected 1) ++ "/" ++ toString b.tokens ++ " ",
     boldInkOn .black (if 0 < b.errors then red else blue)⟩,
   ⟨" | ", separator⟩, ⟨" " ++ b.message ++ " ", plain⟩]

def right (b : StatusBar) : Line :=
  let gap : Span := ⟨" ", plain⟩
  let outcome : Span :=
    if 0 < b.errors then ⟨" " ++ toString b.errors ++ " ERROR(S) ", boldInkOn .black red⟩
    else ⟨" OK ", boldInkOn .black green⟩
  hint " ↑/↓ " "move" ++ gap :: hint " ⇥ " "pane" ++ gap :: hint " e " "error" ++
    gap :: hint "q" "quit" ++ [outcome]

/-- Draws the bar, half of the width for each side. -/
def draw {Canvas : Type} (b : StatusBar) (t : Toolkit Canvas) (area : Rect) (c : Canvas) : Canvas :=
  let (left, right) := t.split .horizontal (.percentage 50) (.percentage 50) area
  let c := t.render (.paragraph { lines := [b.left], base := ground }) left c
  t.render (.paragraph { lines := [b.right], base := ground, alignment := .right }) right c

end StatusBar

end PasoFrontEnd.Explorer
