import PasoFrontEnd.Proofs.Explorer.Offsets
import PasoFrontEnd.Proofs.Explorer.Session
import PasoFrontEnd.Proofs.Scan.Order

/-!
How the source pane follows the selection. The lines of the tokens are those of the text and, behind
a newline at its end, one line more; a drawing brings every line of the text into view, and for the
line behind the text it leaves the pane where it stands.
-/

namespace PasoFrontEnd

/-- Every newline ends a line. -/
theorem Text.count_newline_le (line cs : List Char) :
    cs.count '\n' ≤ (linesFrom line cs).length := by
  fun_induction linesFrom line cs with
  | case1 line => exact Nat.zero_le _
  | case2 line => exact Nat.zero_le _
  | case3 line cs ih => simpa using ih
  | case4 line c cs other ih => rwa [List.count_cons_of_ne other]

namespace Scan

/-- No token stands behind the end of the text. -/
theorem location_le_of_mem_tokens {source : String} {o : ScanOptions} {t : Token}
    (h : t ∈ (ofString source o).tokens) : t.location ≤ .behind source.toList := by
  have ordered := inOrder_ofString source o
  obtain ⟨front, htokens, -⟩ := (balanced_ofChars o .start source.toList).exists_eq_append
  change (ofString source o).tokens = _ at htokens
  have ends := ordered.eof _ (htokens ▸ List.mem_concat_self) rfl
  have precedes := ordered.tokens
  rw [htokens] at h precedes
  obtain h | h := List.mem_append.1 h
  · exact ends ▸ ((List.pairwise_append.1 precedes).2.2 t h _ (List.mem_singleton_self _)).1
  · exact le_of_eq (List.mem_singleton.1 h ▸ ends)

theorem line_of_mem_tokens {source : String} {o : ScanOptions} {t : Token}
    (h : t ∈ (ofString source o).tokens) :
    0 < t.location.line ∧ t.location.line ≤ (Text.lines source).length + 1 := by
  have first : (_ : Location) ≤ t.location := (inOrder_ofString source o).tokens_from t h
  have last := location_le_of_mem_tokens h
  have lines := Text.count_newline_le [] source.toList
  rw [Text.lines, List.length_map]
  change (_ : Nat) < _ ∨ _ at first last
  simp only [Location.behind, List.count_nil] at first last
  omega

end Scan

namespace Explorer

open Screen

theorem exists_currentLine {e : Explorer} (inside : e.selected < e.tokens.length) :
    ∃ t ∈ e.tokens, e.tokens[e.selected]? = some t ∧ e.currentLine = t.location.line := by
  have token := List.getElem?_eq_getElem inside
  exact ⟨_, List.getElem_mem inside, token, by rw [currentLine, token]⟩

/-- No key moves the text in its pane. -/
theorem offset_press (e : Explorer) (key : Key) :
    (e.press key).scroll.source.offset = e.scroll.source.offset := by
  unfold press
  split
  case h_6 => unfold moveUp; split <;> rfl
  case h_7 => unfold moveDown; split <;> rfl
  case h_10 => unfold jumpToError; split <;> rfl
  all_goals rfl

theorem SourcePane.settle_offset_lt {p : SourcePane} {s : SourcePane.Scroll}
    (inside : s.offset < (Text.lines p.source).length) (height : Nat) :
    (p.settle height s).offset < (Text.lines p.source).length := by
  by_cases inText : p.InText
  · rw [settle_offset_of_inText inText]
    exact Nat.lt_of_lt_of_le (offsetFor_lt inText.1) inText.2
  · rwa [settle_offset_of_not_inText inText]

variable {Canvas : Type} (t : Toolkit Canvas)

/-- Some line of the text is at the top of its pane. -/
theorem offset_run_lt {e : Explorer}
    (inside : e.scroll.source.offset < (Text.lines e.source).length) (actions : List Action) :
    (e.run t actions).scroll.source.offset < (Text.lines e.source).length := by
  induction actions generalizing e with
  | nil => exact inside
  | cons a actions ih =>
      have same := (act_continues e t a).source
      rw [← same]
      refine ih (same.symm ▸ ?_)
      cases a with
      | press key => exact (offset_press e key).symm ▸ inside
      | draw width height => exact SourcePane.settle_offset_lt (p := e.sourcePane) inside _

theorem visibleRows_eq {height : Nat} (room : 0 < height - 2) : visibleRows height = height - 2 :=
  Nat.max_eq_left room

/-- A drawing that has room for lines of the text shows the line of the selected token if it is one
of them. A token behind the last line stands on the next one, and for such a token the text stays
where it is in its pane. -/
theorem draw_follows {source : String} (lined : Text.lines source ≠ []) (o : ScanOptions)
    (actions : List Action) {width height : UInt16}
    (room : 0 < (Regions.ofSize t width height).source.innerHeight) :
    let e := (ofString source o).run t actions
    let drawn := (e.draw t width height).1
    let total := (Text.lines source).length
    let visible := (Regions.ofSize t width height).source.innerHeight
    drawn.currentLine = e.currentLine ∧
    drawn.scroll.source.offset < min drawn.currentLine total ∧
    (drawn.currentLine ≤ total → drawn.currentLine ≤ drawn.scroll.source.offset + visible) ∧
    (total < drawn.currentLine →
      drawn.currentLine = total + 1 ∧ drawn.scroll.source.offset = e.scroll.source.offset) := by
  intro e drawn total visible
  have same : Continues (ofString source o) e := run_continues _ t actions
  have lines : (Text.lines e.source).length = total :=
    congrArg (fun s => (Text.lines s).length) same.source
  have inside : drawn.scroll.source.offset < total := by
    have start : (ofString source o).scroll.source.offset < total := List.length_pos_iff.2 lined
    exact lines ▸ SourcePane.settle_offset_lt (p := e.sourcePane)
      (lines.symm ▸ offset_run_lt t start actions) _
  obtain ⟨first, last⟩ : 0 < e.currentLine ∧ e.currentLine ≤ total + 1 := by
    obtain ⟨t, ht, -, line⟩ :=
      exists_currentLine ((placed_ofString source o).run t actions).selected
    exact line ▸ Scan.line_of_mem_tokens (same.tokens ▸ ht)
  by_cases inText : e.currentLine ≤ total
  case pos =>
    have shown : drawn.scroll.source.offset < e.currentLine ∧
        e.currentLine ≤ drawn.scroll.source.offset + visibleRows _ :=
      SourcePane.settle_shows (p := e.sourcePane) ⟨first, lines.symm ▸ inText⟩ _ _
    rw [visibleRows_eq room] at shown
    exact ⟨rfl, Nat.lt_min.2 ⟨shown.1, inside⟩,
      fun _ => shown.2, fun behind => absurd inText (Nat.not_le.2 behind)⟩
  case neg =>
    have stays : drawn.scroll.source.offset = e.scroll.source.offset :=
      SourcePane.settle_offset_of_not_inText (p := e.sourcePane) (fun h => inText (lines ▸ h.2)) _
    have behind : e.currentLine = total + 1 := by omega
    have beyond : total < e.currentLine := by omega
    exact ⟨rfl, Nat.lt_min.2 ⟨Nat.lt_trans inside beyond, inside⟩,
      fun inText' => absurd inText' inText, fun _ => ⟨behind, stays⟩⟩

def twoLines : String := "a = 1\nb = 2\n"

/-- A screen with room for one line shows the second one when a token of it has been selected. -/
theorem draw_follows_twoLines :
    let e := (ofString twoLines {}).run Grid.toolkit
      [.draw 20 5, .press .down, .press .down, .press .down, .press .down]
    let drawn := (e.draw Grid.toolkit 20 5).1
    Text.lines twoLines ≠ [] ∧ (Regions.ofSize Grid.toolkit 20 5).source.innerHeight = 1 ∧
      e.scroll.source.offset = 0 ∧ drawn.currentLine = 2 ∧
      drawn.scroll.source.offset < 2 ∧ 2 ≤ drawn.scroll.source.offset + 1 := by
  intro e drawn
  have lined : Text.lines twoLines ≠ [] := by decide
  have room : (Regions.ofSize Grid.toolkit 20 5).source.innerHeight = 1 := by decide
  have line : drawn.currentLine = 2 := by decide +kernel
  obtain ⟨-, above, below, -⟩ := draw_follows Grid.toolkit lined {}
    [.draw 20 5, .press .down, .press .down, .press .down, .press .down] (room ▸ Nat.zero_lt_one)
  have above : drawn.scroll.source.offset < min drawn.currentLine _ := above
  have below : drawn.currentLine ≤ 2 → drawn.currentLine ≤ drawn.scroll.source.offset + _ := below
  rw [line] at above below
  rw [room] at below
  exact ⟨lined, room, by decide +kernel, line, above, below (Nat.le_refl 2)⟩

/-- Behind a text that ends with a newline the last token stands on no line of it: from the first
line on, its selection leaves the last line out of sight. -/
theorem lastLine_hidden :
    ¬ ∀ (source : String) (o : ScanOptions) (actions : List Action) (width height : UInt16),
      Text.lines source ≠ [] →
      0 < (Regions.ofSize Grid.toolkit width height).source.innerHeight →
      let drawn := (((ofString source o).run Grid.toolkit actions).draw Grid.toolkit width height).1
      let line := min drawn.currentLine (Text.lines source).length
      drawn.scroll.source.offset < line ∧
        line ≤ drawn.scroll.source.offset +
          (Regions.ofSize Grid.toolkit width height).source.innerHeight := by
  intro every
  have followed := every twoLines {} [.press .endKey] 20 5 (by decide) (by decide)
  revert followed
  decide +kernel

end Explorer

end PasoFrontEnd
