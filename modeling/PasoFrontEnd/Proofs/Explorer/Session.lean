import PasoFrontEnd.Explorer.Checked
import PasoFrontEnd.Screen.Panel
import PasoFrontEnd.Proofs.Scan.Counts

/-!
Sessions of the explorer: keys and drawings in any order, at any sizes. The text and its analysis
stay what they are, the selection stays on a token, and the offsets of the panes stay so small that
no sum of a drawing goes beyond the greatest word and no difference below zero.
-/

namespace PasoFrontEnd

namespace Word

theorem succ_lt (n : Nat) : succ n < size :=
  Nat.lt_of_le_of_lt (Nat.min_le_right _ _) (by decide)

end Word

theorem Text.length_linesFrom_le (line cs : List Char) :
    (linesFrom line cs).length ≤ cs.length + 1 := by
  fun_induction linesFrom line cs with
  | case1 line => exact Nat.zero_le _
  | case2 line => exact Nat.le_refl _
  | case3 line cs ih => exact Nat.succ_le_succ ih
  | case4 line c cs _ ih => exact Nat.le_succ_of_le ih

namespace Explorer

open Screen

/-- What can happen to an explorer; a screen has fewer than 65536 columns and rows. -/
inductive Action where
  | press (key : Key)
  | draw (width height : UInt16)
deriving DecidableEq, Repr

variable {Canvas : Type}

def act (e : Explorer) (t : Toolkit Canvas) : Action → Explorer
  | .press key => e.press key
  | .draw width height => (e.draw t width height).1

def run (e : Explorer) (t : Toolkit Canvas) (actions : List Action) : Explorer :=
  actions.foldl (act · t) e

/-- The text and its analysis are the same, and a session that has ended stays so. -/
structure Continues (e e' : Explorer) : Prop where
  source : e'.source = e.source
  tokens : e'.tokens = e.tokens
  errors : e'.errors = e.errors
  outcome : e'.outcome = e.outcome
  quit : e.quit = true → e'.quit = true

section unchanged

variable {e e' e'' : Explorer}

theorem Continues.trans (h : Continues e e') (h' : Continues e' e'') : Continues e e'' :=
  ⟨h'.source.trans h.source, h'.tokens.trans h.tokens, h'.errors.trans h.errors,
    h'.outcome.trans h.outcome, h'.quit ∘ h.quit⟩

theorem Continues.outline (h : Continues e e') : e'.outline = e.outline := by
  rw [Explorer.outline, h.outcome, Explorer.outline]

theorem Continues.errorLocations (h : Continues e e') : e'.errorLocations = e.errorLocations := by
  simp only [Explorer.errorLocations, syntaxError?, h.outcome, h.errors]

theorem Continues.errorLines (h : Continues e e') : e'.errorLines = e.errorLines := by
  rw [Explorer.errorLines, h.errorLocations, Explorer.errorLines]

theorem press_continues (e : Explorer) (key : Key) : Continues e (e.press key) := by
  unfold press
  split
  case h_1 | h_2 | h_3 => exact ⟨rfl, rfl, rfl, rfl, fun _ => rfl⟩
  case h_6 => unfold moveUp; split <;> exact ⟨rfl, rfl, rfl, rfl, id⟩
  case h_7 => unfold moveDown; split <;> exact ⟨rfl, rfl, rfl, rfl, id⟩
  case h_10 => unfold jumpToError; split <;> exact ⟨rfl, rfl, rfl, rfl, id⟩
  all_goals exact ⟨rfl, rfl, rfl, rfl, id⟩

theorem act_continues (e : Explorer) (t : Toolkit Canvas) : (a : Action) → Continues e (e.act t a)
  | .press key => press_continues e key
  | .draw _ _ => ⟨rfl, rfl, rfl, rfl, id⟩

theorem run_continues (e : Explorer) (t : Toolkit Canvas) (actions : List Action) :
    Continues e (e.run t actions) := by
  induction actions generalizing e with
  | nil => exact ⟨rfl, rfl, rfl, rfl, id⟩
  | cons a actions ih => exact (act_continues e t a).trans (ih (e.act t a))

end unchanged

/-- The selection is one of the tokens, the panes stand inside what they show, and every number is a
word. -/
structure Placed (e : Explorer) : Prop where
  selected : e.selected < e.tokens.length
  tokens : e.scroll.tokens < e.tokens.length
  source : e.scroll.source.offset ≤ (Text.lines e.source).length
  target : ∀ row ∈ e.scroll.source.target, row < Word.size
  diagnostics : e.scroll.diagnostics < Word.size
  tree : e.scroll.tree < Word.size

section placed

variable {e : Explorer}

theorem Placed.select (h : Placed e) (index : Nat) : Placed (e.select index) where
  selected := by
    have selected := h.selected
    change min index (e.tokens.length - 1) < e.tokens.length
    omega
  tokens := h.tokens
  source := h.source
  target := h.target
  diagnostics := h.diagnostics
  tree := h.tree

theorem Placed.jumpToError (h : Placed e) : Placed e.jumpToError := by
  unfold Explorer.jumpToError
  split
  case h_1 => exact { h with }
  case h_2 loc _ =>
    have selected :=
      h.select ((e.tokens.findIdx? fun t => loc ≤ t.location).getD (e.tokens.length - 1))
    exact { selected with }

theorem Placed.moveUp (h : Placed e) : Placed e.moveUp := by
  unfold Explorer.moveUp
  split
  case h_1 =>
    refine { h with target := fun row hrow => ?_ }
    obtain ⟨row, -, rfl⟩ := Option.map_eq_some_iff.1 hrow
    exact Word.succ_lt row
  case h_2 => exact h.select _
  case h_3 => exact { h with tree := Nat.lt_of_le_of_lt (Nat.sub_le _ _) h.tree }
  case h_4 => exact { h with diagnostics := Nat.lt_of_le_of_lt (Nat.sub_le _ _) h.diagnostics }

theorem Placed.moveDown (h : Placed e) : Placed e.moveDown := by
  unfold Explorer.moveDown
  split
  case h_1 =>
    refine { h with target := fun row hrow => ?_ }
    obtain ⟨before, hbefore, rfl⟩ := Option.map_eq_some_iff.1 hrow
    exact Nat.lt_of_le_of_lt (Nat.sub_le _ _) (h.target before hbefore)
  case h_2 => exact h.select _
  case h_3 => exact { h with tree := Word.succ_lt _ }
  case h_4 => exact { h with diagnostics := Word.succ_lt _ }

theorem Placed.press (h : Placed e) (key : Key) : Placed (e.press key) := by
  unfold Explorer.press
  split
  case h_6 => exact h.moveUp
  case h_7 => exact h.moveDown
  case h_8 => exact h.select _
  case h_9 => exact h.select _
  case h_10 => exact h.jumpToError
  all_goals exact { h with }

theorem TokenPane.settle_lt {p : TokenPane} {offset : Nat} (inside : offset < p.tokens.length)
    (height : Nat) : p.settle height offset < p.tokens.length := by
  unfold TokenPane.settle
  split
  · exact inside
  · have shown := visibleRows_pos height
    have clamped := clampOffset_le p.tokens.length (visibleRows height)
      (followSelected p.selected (visibleRows height) offset)
    dsimp only
    omega

theorem SourcePane.settle_offset_le {p : SourcePane} {s : SourcePane.Scroll}
    (inside : s.offset ≤ (Text.lines p.source).length) (height : Nat) :
    (p.settle height s).offset ≤ (Text.lines p.source).length := by
  unfold SourcePane.settle
  dsimp only
  split
  · exact Nat.le_trans (clampOffset_le _ _ _) (Nat.sub_le _ _)
  · exact inside

/-- Drawing keeps the panes inside what they show. -/
theorem Placed.settle (h : Placed e) (t : Toolkit Canvas) (width height : UInt16) :
    Placed (e.settle t width height) where
  selected := h.selected
  tokens := TokenPane.settle_lt h.tokens _
  source := SourcePane.settle_offset_le h.source _
  target := by
    rintro row ⟨⟩
    have size := (Regions.ofSize t width height).source.height.toNat_lt
    simp only [SourcePane.targetRow, visibleRows, Word.size]
    omega
  diagnostics := by
    refine Nat.lt_of_le_of_lt ?_ h.diagnostics
    simp only [Explorer.settle, DiagnosticsPane.settle]
    split
    · exact Nat.le_refl _
    · exact Nat.min_le_left _ _
  tree := by
    refine Nat.lt_of_le_of_lt ?_ h.tree
    simp only [Explorer.settle, TreePane.settle]
    split
    · exact Nat.le_refl _
    · exact Nat.min_le_left _ _

theorem Placed.act (h : Placed e) (t : Toolkit Canvas) : (a : Action) → Placed (e.act t a)
  | .press key => h.press key
  | .draw width height => h.settle t width height

theorem Placed.run (h : Placed e) (t : Toolkit Canvas) (actions : List Action) :
    Placed (e.run t actions) := by
  induction actions generalizing e with
  | nil => exact h
  | cons a actions ih => exact ih (h.act t a)

end placed

theorem placed_ofString (source : String) (o : ScanOptions) : Placed (ofString source o) := by
  have nonempty : 0 < (Scan.ofString source o).tokens.length := by
    obtain ⟨front, whole, -⟩ := (Scan.balanced_ofChars o .start source.toList).exists_eq_append
    change (Scan.ofString source o).tokens = _ at whole
    simp [whole]
  have zero : 0 < Word.size := by decide
  exact ⟨nonempty, nonempty, Nat.zero_le _, nofun, zero, zero⟩

/-! In a session a checked build draws what any build draws. -/

section arithmetic

theorem clampOffset?_eq (total visible offset : Nat) :
    clampOffset? total visible offset = some (clampOffset total visible offset) := by
  unfold clampOffset? clampOffset
  split
  case isTrue more => rw [Word.sub?_eq_some (Nat.le_of_lt more), Option.map_some]
  case isFalse fits => rw [Nat.sub_eq_zero_of_le (Nat.le_of_not_lt fits), Nat.min_zero]

/-- The rows are counted from the offset only when the selection is below it. -/
theorem followSelected?_eq {selected visible offset : Nat} (next : selected + 1 < Word.size)
    (room : offset ≤ selected → offset + visible < Word.size) :
    followSelected? selected visible offset = some (followSelected selected visible offset) := by
  unfold followSelected? followSelected
  split
  case isTrue => rfl
  case isFalse below =>
    rw [Word.add?_eq_some (room (Nat.not_lt.1 below)), Option.bind_eq_bind, Option.bind_some]
    split
    case isTrue hidden =>
      rw [Word.add?_eq_some next, Option.bind_some, Word.sub?_eq_some (by omega)]
    case isFalse => rfl

example : followSelected? (Word.last - 4) 5 0 = some (Word.last - 8) ∧
    followSelected? Word.last 5 0 = none := by
  decide

theorem DiagnosticsPane.settle?_eq (p : DiagnosticsPane) (height offset : Nat) :
    p.settle? height offset = some (p.settle height offset) := by
  rw [DiagnosticsPane.settle?, clampOffset?_eq, DiagnosticsPane.settle, apply_ite some]

theorem TreePane.settle?_eq (p : TreePane) (height offset : Nat) :
    p.settle? height offset = some (p.settle height offset) := by
  rw [TreePane.settle?, clampOffset?_eq, TreePane.settle, apply_ite some]

theorem TokenPane.settle?_eq {p : TokenPane} {height offset : Nat}
    (next : p.selected + 1 < Word.size)
    (room : offset ≤ p.selected → offset + visibleRows height < Word.size) :
    p.settle? height offset = some (p.settle height offset) := by
  rw [TokenPane.settle?, followSelected?_eq next room, Option.bind_some, clampOffset?_eq,
    TokenPane.settle, apply_ite some]

theorem SourcePane.settle?_eq (p : SourcePane) (height : Nat) (s : SourcePane.Scroll) :
    p.settle? height s = some (p.settle height s) := by
  unfold SourcePane.settle? SourcePane.settle
  dsimp only
  split
  case isTrue inText =>
    rw [Word.sub?_eq_some inText.1, Option.bind_eq_bind, Option.bind_some, clampOffset?_eq,
      Option.bind_some, offsetFor]
  case isFalse => rfl

theorem SourcePane.exists_numbers? {p : SourcePane}
    (short : (Text.lines p.source).length < Word.size) (height offset : Nat) :
    ∃ numbers, p.numbers? height offset = some numbers := by
  have inside : ∀ row ∈ visibleRun (Text.lines p.source) offset (visibleRows height),
      row.2 < (Text.lines p.source).length := fun row hrow =>
    (List.mem_zipIdx' (List.mem_of_mem_drop (List.mem_of_mem_take hrow))).1
  unfold SourcePane.numbers?
  generalize visibleRun (Text.lines p.source) offset (visibleRows height) = rows at inside
  induction rows with
  | nil => exact ⟨[], rfl⟩
  | cons row rows ih =>
      obtain ⟨numbers, hnumbers⟩ := ih fun row' hrow' => inside row' (List.mem_cons_of_mem _ hrow')
      have first := inside row List.mem_cons_self
      have number := Word.add?_eq_some (m := row.2) (n := 1) (by omega)
      exact ⟨(row.2 + 1) :: numbers, by simp [List.mapM_cons, number, hnumbers]⟩

/-- There is room for the rows of a screen behind the tokens, and no list is longer than a word
counts. -/
structure Fits (e : Explorer) : Prop where
  tokens : e.tokens.length + 65536 ≤ Word.size
  lines : (Text.lines e.source).length < Word.size
  errors : e.errors.length + 1 < Word.size

theorem draw?_eq_some {e : Explorer} (h : Placed e) (fits : Fits e) (t : Toolkit Canvas)
    (width height : UInt16) : e.draw? t width height = some (e.draw t width height) := by
  have selected := h.selected
  have room := fits.tokens
  have next : e.selected + 1 < Word.size := by omega
  have shown : e.scroll.tokens ≤ e.selected → e.scroll.tokens +
      visibleRows (Regions.ofSize t width height).tokens.height.toNat < Word.size := by
    intro above
    have size := (Regions.ofSize t width height).tokens.height.toNat_lt
    unfold visibleRows
    omega
  have count : e.errors.length + e.syntaxError?.toList.length < Word.size := by
    have short := fits.errors
    cases e.syntaxError? <;> simp <;> omega
  obtain ⟨numbers, hnumbers⟩ := SourcePane.exists_numbers? (p := e.sourcePane) fits.lines
    (Regions.ofSize t width height).source.height.toNat
    (e.sourcePane.settle (Regions.ofSize t width height).source.height.toNat
      e.scroll.source).offset
  simp only [draw?, SourcePane.settle?_eq, Option.bind_eq_bind, Option.bind_some, hnumbers,
    DiagnosticsPane.settle?_eq, TokenPane.settle?_eq (p := e.tokenPane) next shown,
    TreePane.settle?_eq,
    Word.add?_eq_some next, Word.add?_eq_some count]
  rfl

end arithmetic

theorem fits_ofString {source : String} (short : 2 * source.length < Word.size) (o : ScanOptions) :
    Fits (ofString source o) := by
  have tokens : 2 * (ofString source o).tokens.length ≤ 3 * source.length + 3 :=
    Scan.length_tokens_ofString_le source o
  have errors : (ofString source o).errors.length ≤ source.length + 2 :=
    Scan.length_errors_ofString_le source o
  have lines : (Text.lines (ofString source o).source).length ≤ source.length + 1 := by
    have split := Text.length_linesFrom_le [] source.toList
    rwa [String.length_toList, ← List.length_map] at split
  have size : Word.size = 18446744073709551616 := rfl
  exact ⟨by omega, by omega, by omega⟩

theorem Continues.fits {e e' : Explorer} (same : Continues e e') (h : Fits e) : Fits e' where
  tokens := same.tokens ▸ h.tokens
  lines := same.source ▸ h.lines
  errors := same.errors ▸ h.errors

/-- However long a session runs, and whatever it is drawn with, its text and analysis are those of
its start, its selection is a token, and the next drawing goes through at every size of the screen.
The text has bytes for at most half of the words, as every text in memory does. -/
theorem run_ofString (source : String) (o : ScanOptions) (t : Toolkit Canvas)
    (actions : List Action) :
    let start := ofString source o
    let e := start.run t actions
    e.tokens ≠ [] ∧ e.selected < e.tokens.length ∧
    (e.outcome.toOption.isSome = !e.syntaxError?.isSome) ∧
    e.source = source ∧ e.tokens = start.tokens ∧ e.errors = start.errors ∧
    e.outcome = start.outcome ∧
    e.outline = start.outline ∧ e.errorLines = start.errorLines ∧
    (∀ more, e.quit = true → (e.run t more).quit = true) ∧
    Placed e ∧
    (2 * source.length < Word.size → ∀ width height : UInt16,
      e.draw? t width height = some (e.draw t width height)) := by
  intro start e
  have placed : Placed e := (placed_ofString source o).run t actions
  have same : Continues start e := run_continues start t actions
  have nonempty : e.tokens ≠ [] := List.length_pos_iff.1 (Nat.zero_lt_of_lt placed.selected)
  have one : e.outcome.toOption.isSome = !e.syntaxError?.isSome := by
    unfold syntaxError?
    cases e.outcome <;> rfl
  exact ⟨nonempty, placed.selected, one, same.source, same.tokens, same.errors, same.outcome,
    same.outline, same.errorLines, fun more => (run_continues e t more).quit, placed,
    fun short => draw?_eq_some placed (same.fits (fits_ofString short o)) t⟩

/-- A session that a key ended; it goes on being drawn, on a wide screen with a single row. -/
theorem run_ofString_ended :
    let e := (ofString "a = 1\nb 2" {}).run Grid.toolkit
      [.press .endKey, .draw 80 24, .press (.char 'q')]
    e.selected < e.tokens.length ∧ (e.run Grid.toolkit [.press .tab, .draw 3 2]).quit = true ∧
      e.draw? Grid.toolkit 65535 1 = some (e.draw Grid.toolkit 65535 1) := by
  intro e
  obtain ⟨-, selected, -, -, -, -, -, -, -, ended, -, drawn⟩ := run_ofString "a = 1\nb 2" {}
    Grid.toolkit [.press .endKey, .draw 80 24, .press (.char 'q')]
  exact ⟨selected, ended _ rfl, drawn (by decide) 65535 1⟩

end Explorer

end PasoFrontEnd
