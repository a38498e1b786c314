import PasoFrontEnd.Screen.Toolkit

/-!
Areas of a grid, and how rectangles are divided.
-/

namespace PasoFrontEnd.Screen

/-- The cells from `(x, y)` on, so many to the right and so many down, whether a grid has them or
not. -/
structure Area where
  x : Nat
  y : Nat
  width : Nat
  height : Nat
deriving DecidableEq, Repr

def Rect.area (r : Rect) : Area := ⟨r.x.toNat, r.y.toNat, r.width.toNat, r.height.toNat⟩

namespace Area

/-- The part of the area inside the columns `0` to `width - 1` and the rows `0` to `height - 1`. -/
def cut (a : Area) (width height : Nat) : Area :=
  { a with width := min a.width (width - a.x), height := min a.height (height - a.y) }

/-- The area without a border of one cell on every side. -/
def inner (a : Area) : Area := ⟨a.x + 1, a.y + 1, a.width - 2, a.height - 2⟩

/-- The area without its leftmost columns. -/
def indent (a : Area) (columns : Nat) : Area :=
  { a with x := a.x + columns, width := a.width - columns }

end Area

/-- The area inside a frame. -/
def Frame.inside (f : Frame) (a : Area) : Area := a.inner.indent f.padding

/-- How much a part takes of a length. A percentage is rounded to the nearest whole cell, a half
upwards. -/
def Constraint.share (c : Constraint) (n : Nat) : Nat :=
  match c with
  | min m | length m => Nat.min m n
  | percentage p => Nat.min ((n * p + 50) / 100) n

/-- How much the first of two parts takes of a length: its share, or all but the share of the second
part if it asks for a minimum only. -/
def Constraint.first (first second : Constraint) (n : Nat) : Nat :=
  match first with
  | min _ => n - second.share n
  | length _ | percentage _ => first.share n

/-- The two parts of a rectangle. The second one takes what the first one leaves. -/
def Rect.split (direction : Direction) (first second : Constraint) (r : Rect) : Rect × Rect :=
  match direction with
  | .horizontal =>
    let w := (first.first second r.width.toNat).toUInt16
    ({ r with width := w }, { r with x := r.x + w, width := r.width - w })
  | .vertical =>
    let h := (first.first second r.height.toNat).toUInt16
    ({ r with height := h }, { r with y := r.y + h, height := r.height - h })

end PasoFrontEnd.Screen
