import PasoFrontEnd.Explorer.View

/-!
Where the panes stand once they are drawn. An offset that already fits what its pane shows is left
as it is, and the one that a drawing settles on fits; so a second drawing at the same size moves
nothing.
-/

namespace PasoFrontEnd.Explorer

/-- The selected row is in the run of visible rows, and no rows stay empty below the last one. -/
structure InView (total visible selected offset : Nat) : Prop where
  above : offset ≤ selected
  below : selected < offset + visible
  full : offset ≤ total - visible

section inView

variable {total visible selected : Nat}

theorem inView_clampOffset (inside : selected < total) (shown : 0 < visible) (offset : Nat) :
    InView total visible selected
      (clampOffset total visible (followSelected selected visible offset)) := by
  unfold clampOffset followSelected
  split
  case isTrue => constructor <;> omega
  case isFalse => split <;> constructor <;> omega

theorem InView.followSelected_eq {offset : Nat} (h : InView total visible selected offset) :
    followSelected selected visible offset = offset := by
  rw [followSelected, if_neg (Nat.not_lt.2 h.above), if_neg (Nat.not_le.2 h.below)]

theorem InView.clampOffset_eq {offset : Nat} (h : InView total visible selected offset) :
    clampOffset total visible offset = offset := Nat.min_eq_left h.full

end inView

namespace TokenPane

variable {p : TokenPane}

theorem settle_eq (nonempty : p.tokens ≠ []) (height offset : Nat) :
    p.settle height offset = clampOffset p.tokens.length (visibleRows height)
      (followSelected p.selected (visibleRows height) offset) := by
  rw [settle, if_neg (by simpa using nonempty)]

theorem inView_settle (inside : p.selected < p.tokens.length) (height offset : Nat) :
    InView p.tokens.length (visibleRows height) p.selected (p.settle height offset) := by
  rw [settle_eq (List.ne_nil_of_length_pos (Nat.zero_lt_of_lt inside))]
  exact inView_clampOffset inside (visibleRows_pos height) offset

theorem settle_of_inView {height offset : Nat}
    (h : InView p.tokens.length (visibleRows height) p.selected offset) :
    p.settle height offset = offset := by
  by_cases empty : p.tokens = []
  · rw [settle, if_pos (by simpa using empty)]
  · rw [settle_eq empty, h.followSelected_eq, h.clampOffset_eq]

end TokenPane

namespace SourcePane

theorem targetRow_targetRow (visible : Nat) (target : Option Nat) :
    targetRow visible (some (targetRow visible target)) = targetRow visible target :=
  Nat.min_eq_left (Nat.min_le_right _ _)

theorem targetRow_lt {visible : Nat} (shown : 0 < visible) (target : Option Nat) :
    targetRow visible target < visible := by
  unfold targetRow
  omega

theorem offsetFor_lt {total visible line row : Nat} (first : 0 < line) :
    offsetFor total visible line row < line := by
  unfold offsetFor clampOffset
  omega

theorem le_offsetFor_add {total visible line row : Nat} (last : line ≤ total)
    (inside : row < visible) :
    line ≤ offsetFor total visible line row + visible := by
  unfold offsetFor clampOffset
  omega

variable {p : SourcePane} {s : Scroll}

/-- The current line is a line of the text. -/
def InText (p : SourcePane) : Prop :=
  0 < p.currentLine ∧ p.currentLine ≤ (Text.lines p.source).length

theorem settle_offset_of_inText (h : p.InText) (height : Nat) :
    (p.settle height s).offset =
      offsetFor (Text.lines p.source).length (visibleRows height) p.currentLine
      (targetRow (visibleRows height) s.target) := if_pos h

theorem settle_offset_of_not_inText (h : ¬ p.InText) (height : Nat) :
    (p.settle height s).offset = s.offset := if_neg h

/-- A current line of the text is shown. -/
theorem settle_shows (h : p.InText) (height : Nat) (s : Scroll) :
    (p.settle height s).offset < p.currentLine ∧
      p.currentLine ≤ (p.settle height s).offset + visibleRows height := by
  rw [settle_offset_of_inText h]
  exact ⟨offsetFor_lt h.1, le_offsetFor_add h.2 (targetRow_lt (visibleRows_pos height) _)⟩

theorem settle_settle (p : SourcePane) (height : Nat) (s : Scroll) :
    p.settle height (p.settle height s) = p.settle height s := by
  unfold settle
  simp only [targetRow_targetRow]
  split <;> rfl

end SourcePane

theorem DiagnosticsPane.settle_settle (p : DiagnosticsPane) (height offset : Nat) :
    p.settle height (p.settle height offset) = p.settle height offset := by
  unfold DiagnosticsPane.settle
  split
  · rfl
  · exact clampOffset_clampOffset _ _ _

theorem TreePane.settle_settle (p : TreePane) (height offset : Nat) :
    p.settle height (p.settle height offset) = p.settle height offset := by
  unfold TreePane.settle
  split
  · rfl
  · exact clampOffset_clampOffset _ _ _

/-- What the panes show is what they show at any offsets. -/
theorem settle_settle {Canvas : Type} {e : Explorer} (inside : e.selected < e.tokens.length)
    (t : Screen.Toolkit Canvas) (width height : UInt16) :
    (e.settle t width height).settle t width height = e.settle t width height := by
  let r := Regions.ofSize t width height
  have source := e.sourcePane.settle_settle r.source.height.toNat e.scroll.source
  have diagnostics :=
    e.diagnosticsPane.settle_settle r.diagnostics.height.toNat e.scroll.diagnostics
  have tokens := TokenPane.settle_of_inView
    (e.tokenPane.inView_settle inside r.tokens.height.toNat e.scroll.tokens)
  have tree := e.treePane.settle_settle r.tree.height.toNat e.scroll.tree
  have scroll : ((e.settle t width height).settle t width height).scroll =
      (e.settle t width height).scroll :=
    (Scroll.mk.injEq ..).mpr ⟨source, diagnostics, tokens, tree⟩
  exact congrArg (fun scroll : Scroll => { e with scroll }) scroll

end PasoFrontEnd.Explorer
