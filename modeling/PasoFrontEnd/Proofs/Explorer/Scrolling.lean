import Mathlib.Data.Nat.Dist
import PasoFrontEnd.Proofs.Explorer.Offsets
import PasoFrontEnd.Proofs.Explorer.Session

/-!
How far a drawing scrolls. The token pane moves no further than the selection and the last page ask
for; the source pane puts the current line on its target row wherever it stood before, as far as
there are lines above and below to fill the rows.
-/

namespace PasoFrontEnd.Explorer

variable {total visible selected : Nat}

/-- A number of a row stands in the run as far down as the offset is smaller. -/
theorem getElem?_map_snd_visibleRun {α : Type} {rows : List α} {offset row : Nat}
    (shown : row < visible) (inside : offset + row < rows.length) :
    ((visibleRun rows offset visible).map Prod.snd)[row]? = some (offset + row) := by
  rw [visibleRun, List.getElem?_map, List.getElem?_take_of_lt shown, List.getElem?_drop,
    List.getElem?_zipIdx, List.getElem?_eq_getElem inside]
  simp

/-- The offset goes up to the selected row, down to it, or stays where it is. -/
theorem followSelected_cases (selected visible offset : Nat) :
    (selected < offset ∧ followSelected selected visible offset = selected) ∨
    (offset + visible ≤ selected ∧
      followSelected selected visible offset = selected + 1 - visible) ∨
    (offset ≤ selected ∧ selected < offset + visible ∧
      followSelected selected visible offset = offset) := by
  unfold followSelected
  split
  case isTrue above => exact .inl ⟨above, rfl⟩
  case isFalse notAbove =>
    split
    case isTrue below => exact .inr (.inl ⟨below, rfl⟩)
    case isFalse notBelow => exact .inr (.inr ⟨by omega, by omega, rfl⟩)

/-- Among the offsets with the selection in view, none is as near to the offset before. -/
theorem InView.dist_lt {offset other : Nat} (h : InView total visible selected other)
    (apart : other ≠ clampOffset total visible (followSelected selected visible offset)) :
    (clampOffset total visible (followSelected selected visible offset)).dist offset <
      other.dist offset := by
  obtain ⟨above, below, full⟩ := h
  unfold clampOffset at apart ⊢
  unfold Nat.dist
  obtain ⟨hidden, followed⟩ | ⟨hidden, followed⟩ | ⟨-, -, followed⟩ :=
    followSelected_cases selected visible offset
  all_goals
    rw [followed] at apart ⊢
    omega

/-- A drawing leaves the token pane at the offset nearest to the one before among those that keep
the selected token in view and the last page full. The row of the selected token is one of those
that are drawn, drawing again moves nothing, and where the sum of offset and height is a word, so
are all numbers on the way. -/
theorem tokens_scroll_least {p : TokenPane} (inside : p.selected < p.tokens.length)
    (height offset : Nat) :
    let visible := visibleRows height
    let settled := p.settle height offset
    InView p.tokens.length visible p.selected settled ∧
    p.selected ∈ (visibleRun p.tokens settled visible).map Prod.snd ∧
    (∀ other, InView p.tokens.length visible p.selected other → other ≠ settled →
      settled.dist offset < other.dist offset) ∧
    p.settle height settled = settled ∧
    (p.tokens.length < Word.size → offset + visible < Word.size →
      p.settle? height offset = some settled) := by
  intro visible settled
  have inView : InView p.tokens.length visible p.selected settled :=
    p.inView_settle inside height offset
  have eq : settled = clampOffset p.tokens.length visible
      (followSelected p.selected visible offset) :=
    TokenPane.settle_eq (List.ne_nil_of_length_pos (Nat.zero_lt_of_lt inside)) height offset
  refine ⟨inView, ?shown, fun other h apart => ?nearest, TokenPane.settle_of_inView inView,
    fun counted room => ?words⟩
  case shown =>
    obtain ⟨above, below, -⟩ := inView
    have row : p.selected - settled < visible := by omega
    have inside : settled + (p.selected - settled) < p.tokens.length := by omega
    have shown := getElem?_map_snd_visibleRun row inside
    rw [Nat.add_sub_cancel' above] at shown
    exact List.mem_of_getElem? shown
  case nearest =>
    rw [eq] at apart ⊢
    exact h.dist_lt apart
  case words => exact TokenPane.settle?_eq (by omega) (fun _ => room)

def newlines : List Token := List.replicate 40 ⟨.newline, "\n", ⟨1, 1⟩⟩

/-- With ten rows in view, the offset 0 gives way to 3 when the token with the number 12 is
selected. -/
theorem tokens_scroll_least_down :
    let p : TokenPane := { tokens := newlines, selected := 12 }
    p.selected < p.tokens.length ∧ visibleRows 12 = 10 ∧ p.settle 12 0 = 3 ∧ InView 40 10 12 3 ∧
      (∀ other, InView 40 10 12 other → other ≠ 3 → Nat.dist 3 0 < other.dist 0) ∧
      p.settle 12 3 = 3 := by
  intro p
  have inside : p.selected < p.tokens.length := by decide
  have settled : p.settle 12 0 = 3 := by decide
  obtain ⟨inView, -, nearest, again, -⟩ := tokens_scroll_least inside 12 0
  rw [settled] at inView nearest again
  exact ⟨inside, by decide, settled, inView, nearest, again⟩

namespace SourcePane

/-- The numbers of the lines that the pane shows, from the top row down. -/
def shownLines (p : SourcePane) (height offset : Nat) : List Nat :=
  (visibleRun (Text.lines p.source) offset (visibleRows height)).map (·.2 + 1)

variable {p : SourcePane}

theorem getElem?_shownLines {height offset row : Nat} (shown : row < visibleRows height)
    (inside : offset + row < (Text.lines p.source).length) :
    (p.shownLines height offset)[row]? = some (offset + row + 1) := by
  have number := getElem?_map_snd_visibleRun shown inside
  rw [shownLines, ← Function.comp_def (· + 1) Prod.snd, ← List.map_map, List.getElem?_map, number]
  rfl

end SourcePane

/-- Wherever the source pane stood before, a drawing leaves a current line of the text on its target
row. Too few lines above it leave the first line at the top; too few below it leave the last line at
the bottom, or the first one at the top if the whole text is shown. -/
theorem source_keeps_row {p : SourcePane} (inText : p.InText) (height : Nat)
    (s : SourcePane.Scroll) :
    let visible := visibleRows height
    let total := (Text.lines p.source).length
    let row := min (s.target.getD (visible / 2)) (visible - 1)
    let settled := p.settle height s
    settled.target = some row ∧
    p.currentLine ∈ p.shownLines height settled.offset ∧
    settled.offset < p.currentLine ∧ p.currentLine ≤ settled.offset + visible ∧
    (row < p.currentLine → p.currentLine - 1 - row + visible ≤ total →
      (p.shownLines height settled.offset)[row]? = some p.currentLine) ∧
    (p.currentLine ≤ row → settled.offset = 0) ∧
    (total < p.currentLine - 1 - row + visible → settled.offset = total - visible) ∧
    ∀ offset, p.settle height { s with offset } = settled := by
  intro visible total row settled
  have bounds : 0 < p.currentLine ∧ p.currentLine ≤ total := inText
  have ⟨first, last⟩ := bounds
  have offset : settled.offset = min (p.currentLine - 1 - row) (total - visible) :=
    SourcePane.settle_offset_of_inText inText height
  obtain ⟨above, below⟩ : settled.offset < p.currentLine ∧
      p.currentLine ≤ settled.offset + visible :=
    SourcePane.settle_shows inText height s
  have inside : row < visible := SourcePane.targetRow_lt (visibleRows_pos height) s.target
  refine ⟨rfl, ?shown, above, below, fun precede fill => ?onRow, fun few => by omega,
    fun few => by omega, fun other => ?anywhere⟩
  case shown =>
    have lowest : p.currentLine - 1 - settled.offset < visible := by omega
    have line : settled.offset + (p.currentLine - 1 - settled.offset) < total := by omega
    have shown := SourcePane.getElem?_shownLines lowest line
    rw [show settled.offset + (p.currentLine - 1 - settled.offset) + 1 = p.currentLine by omega]
      at shown
    exact List.mem_of_getElem? shown
  case onRow =>
    have line : settled.offset + row < total := by omega
    have shown := SourcePane.getElem?_shownLines inside line
    rwa [show settled.offset + row + 1 = p.currentLine by omega] at shown
  case anywhere => simp only [settled, SourcePane.settle, if_pos bounds, total]

/-- Of seven lines three are in view; the fourth one is put in the middle of them. -/
theorem source_keeps_row_middle :
    let p : SourcePane := { source := "a\nb\nc\nd\ne\nf\ng\n", currentLine := 4 }
    p.InText ∧ visibleRows 5 = 3 ∧ (p.settle 5 ⟨6, none⟩).target = some 1 ∧
      4 ∈ p.shownLines 5 (p.settle 5 ⟨6, none⟩).offset ∧
      (p.shownLines 5 (p.settle 5 ⟨6, none⟩).offset)[1]? = some 4 ∧
      p.settle 5 ⟨0, none⟩ = p.settle 5 ⟨6, none⟩ := by
  intro p
  have inText : p.InText := ⟨by decide, by decide⟩
  obtain ⟨target, shown, -, -, onRow, -, -, anywhere⟩ := source_keeps_row inText 5 ⟨6, none⟩
  exact ⟨inText, by decide, target, shown, onRow (by decide) (by decide), anywhere 0⟩

end PasoFrontEnd.Explorer
