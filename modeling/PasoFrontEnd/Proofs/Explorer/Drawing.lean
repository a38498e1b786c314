import PasoFrontEnd.Proofs.Explorer.Offsets
import PasoFrontEnd.Proofs.Explorer.Session

/-!
Drawing changes nothing but where the panes stand, and no key looks at where they stand but to move
them. So a session goes on as it would without its drawings, and a drawing that is repeated shows
the same again, whatever the toolkit makes of it.
-/

namespace PasoFrontEnd.Explorer

open Screen

def Action.isPress : Action → Bool
  | .press _ => true
  | .draw _ _ => false

/-- The second explorer is the first one with its panes standing elsewhere. -/
def Moved (e e' : Explorer) : Prop := ∃ scroll, e' = { e with scroll }

variable {e e' : Explorer} {Canvas : Type} (t : Toolkit Canvas)

theorem Moved.refl (e : Explorer) : Moved e e := ⟨e.scroll, rfl⟩

theorem Moved.draw (h : Moved e e') (width height : UInt16) :
    Moved e (e'.act t (.draw width height)) := by
  obtain ⟨scroll, rfl⟩ := h
  exact ⟨_, rfl⟩

theorem Moved.moveUp (h : Moved e e') : Moved e.moveUp e'.moveUp := by
  obtain ⟨scroll, rfl⟩ := h
  obtain ⟨source, tokens, errors, outcome, status, focus, selected, scroll', quit⟩ := e
  cases focus <;> exact ⟨_, rfl⟩

theorem Moved.moveDown (h : Moved e e') : Moved e.moveDown e'.moveDown := by
  obtain ⟨scroll, rfl⟩ := h
  obtain ⟨source, tokens, errors, outcome, status, focus, selected, scroll', quit⟩ := e
  cases focus <;> exact ⟨_, rfl⟩

theorem Moved.jumpToError (h : Moved e e') : Moved e.jumpToError e'.jumpToError := by
  obtain ⟨scroll, rfl⟩ := h
  have same : ({ e with scroll } : Explorer).errorLocations = e.errorLocations := rfl
  rw [Explorer.jumpToError, Explorer.jumpToError, same]
  cases Location.earliest? e.errorLocations <;> exact ⟨scroll, rfl⟩

/-- What a key does depends on where the panes stand only in where it lets them stand. -/
theorem Moved.press (h : Moved e e') (key : Key) : Moved (e.press key) (e'.press key) := by
  unfold Explorer.press
  split
  case h_6 => exact h.moveUp
  case h_7 => exact h.moveDown
  case h_10 => exact h.jumpToError
  all_goals
    obtain ⟨scroll, rfl⟩ := h
    exact ⟨scroll, rfl⟩

theorem Moved.run (h : Moved e e') (actions : List Action) :
    Moved (e.run t (actions.filter Action.isPress)) (e'.run t actions) := by
  induction actions generalizing e e' with
  | nil => exact h
  | cons a actions ih =>
      cases a with
      | press key => exact ih (h.press key)
      | draw width height => exact ih (h.draw t width height)

/-- Whatever a session is drawn with, it goes with its drawings the way it goes without them. A
drawing changes nothing but where the panes stand, and the same drawing again leaves the same
explorer and shows the same screen. -/
theorem drawings_apart (source : String) (o : ScanOptions) (t : Toolkit Canvas)
    (actions : List Action) :
    let start := ofString source o
    let e := start.run t actions
    let undrawn := start.run t (actions.filter Action.isPress)
    e.focus = undrawn.focus ∧ e.selected = undrawn.selected ∧ e.status = undrawn.status ∧
    e.quit = undrawn.quit ∧
    ∀ width height : UInt16,
      let drawn := e.draw t width height
      drawn.1 = { e with scroll := drawn.1.scroll } ∧
      drawn.1.draw t width height = drawn := by
  intro start e undrawn
  obtain ⟨scroll, moved⟩ : Moved undrawn e := (Moved.refl start).run t actions
  have placed : Placed e := (placed_ofString source o).run t actions
  refine ⟨by rw [moved], by rw [moved], by rw [moved], by rw [moved], fun width height => ⟨rfl, ?_⟩⟩
  have settled := settle_settle placed.selected t width height
  exact congrArg (fun e : Explorer => (e, e.paint t width height)) settled

end PasoFrontEnd.Explorer
