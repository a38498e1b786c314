import PasoFrontEnd.Screen.Style

/-!
What a program shows on a screen, and what it needs for that. Widgets are text with its styles and
its places; how a screen is divided, and what a widget looks like in cells, is the business of a
toolkit.
-/

namespace PasoFrontEnd.Screen

/-- The cells from `(x, y)` on, so many to the right and so many down. Screens are measured with
16 bits. -/
structure Rect where
  x : UInt16
  y : UInt16
  width : UInt16
  height : UInt16
deriving DecidableEq, Repr

/-- The number of rows inside a border. -/
def Rect.innerHeight (r : Rect) : Nat := r.height.toNat - 2

inductive Direction where
  | horizontal
  | vertical
deriving DecidableEq, Repr

/-- What a part of a rectangle asks for. -/
inductive Constraint where
  | min (n : Nat)
  | length (n : Nat)
  | percentage (n : Nat)
deriving DecidableEq, Repr

/-- Text of one style. -/
structure Span where
  text : String
  style : Style
deriving DecidableEq, Repr

/-- A line of text, from the left to the right. -/
abbrev Line := List Span

/-- The line with a style over its own. -/
def Line.patch (line : Line) (above : Style) : Line :=
  line.map fun s => { s with style := s.style.patch above }

/-- A border with a title, which has the style of the border. -/
structure Frame where
  title : String
  style : Style
  /-- The number of free columns inside the border on the left. -/
  padding : Nat := 0
deriving DecidableEq, Repr

/-- Where the lines of a paragraph begin. -/
inductive Alignment where
  | left
  | right
deriving DecidableEq, Repr

/-- Lines of text, over a style for the whole of the paragraph. -/
structure Paragraph where
  lines : List Line
  frame : Option Frame := none
  base : Style := {}
  alignment : Alignment := .left
  /-- Whether lines are broken where they are too long. -/
  wraps : Bool := false
deriving DecidableEq, Repr

inductive Widget where
  | paragraph (p : Paragraph)
  /-- Rows one below the other. Each has a style over the whole width. -/
  | rows (frame : Frame) (rows : List (Style × Line))
deriving DecidableEq, Repr

/-- What a program is shown with. -/
structure Toolkit (Canvas : Type) where
  /-- A screen of so many columns and rows with nothing on it. -/
  blank : UInt16 → UInt16 → Canvas
  /-- A rectangle in two parts, one beside or below the other. -/
  split : Direction → Constraint → Constraint → Rect → Rect × Rect
  /-- A screen with a widget on it. -/
  render : Widget → Rect → Canvas → Canvas

end PasoFrontEnd.Screen
