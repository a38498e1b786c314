/-!
Scrolling. A pane shows a run of its rows; the offset of a pane is the number of rows above the run.
-/

namespace PasoFrontEnd.Explorer

/-- How many rows a framed pane of the given height shows; a pane too low for any counts as showing
one. -/
def visibleRows (height : Nat) : Nat := max (height - 2) 1

/-- The offset, made small enough that no rows stay empty below the last one. -/
def clampOffset (total visible offset : Nat) : Nat := min offset (total - visible)

/-- The offset, changed by as little as brings the selected row into the run. -/
def followSelected (selected visible offset : Nat) : Nat :=
  if selected < offset then selected
  else if offset + visible ≤ selected then selected + 1 - visible
  else offset

/-- The rows of a run, with their numbers. -/
def visibleRun {α : Type} (rows : List α) (offset visible : Nat) : List (α × Nat) :=
  (rows.zipIdx.drop offset).take visible

theorem visibleRows_pos (height : Nat) : 0 < visibleRows height := by
  unfold visibleRows
  omega

theorem clampOffset_le (total visible offset : Nat) :
    clampOffset total visible offset ≤ total - visible := Nat.min_le_right ..

theorem clampOffset_clampOffset (total visible offset : Nat) :
    clampOffset total visible (clampOffset total visible offset) =
      clampOffset total visible offset := by
  unfold clampOffset
  omega

end PasoFrontEnd.Explorer
