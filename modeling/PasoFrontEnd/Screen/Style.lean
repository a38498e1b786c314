/-!
Colours and styles of a character screen. A cell always has both colours; a style names only what it
changes, and applying one style after another is applying the second over the first.
-/

namespace PasoFrontEnd.Screen

inductive Color where
  /-- The colour that the screen has by itself. -/
  | reset
  | black
  | white
  | rgb (red green blue : UInt8)
deriving DecidableEq, Repr

/-- What a style changes: the colours that it names, and whether it makes bold. -/
structure Style where
  fg : Option Color := none
  bg : Option Color := none
  bold : Bool := false
deriving DecidableEq, Repr

namespace Style

/-- One style, and another over it. -/
def patch (below above : Style) : Style :=
  ⟨above.fg <|> below.fg, above.bg <|> below.bg, below.bold || above.bold⟩

end Style

/-- A cell of a screen. -/
structure Cell where
  char : Char := ' '
  fg : Color := .reset
  bg : Color := .reset
  bold : Bool := false
deriving DecidableEq, Repr

namespace Cell

/-- The cell with a style over what it has. A style makes no cell less bold. -/
def apply (cell : Cell) (s : Style) : Cell :=
  { cell with fg := s.fg.getD cell.fg, bg := s.bg.getD cell.bg, bold := cell.bold || s.bold }

end Cell

end PasoFrontEnd.Screen
