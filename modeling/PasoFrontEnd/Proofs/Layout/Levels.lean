import PasoFrontEnd.Proofs.Layout.Changes

/-!
The levels of a layout. Whatever lines are entered, blocks further in are wider than those around
them, no block is wider than the line entered last, and a line is misaligned exactly if it is
narrower than the line entered before it and has the width of no open block.
-/

namespace PasoFrontEnd.Layout

/-- Widths of blocks that stand inside each other, innermost first. -/
structure Inward (levels : List Nat) : Prop where
  wider : levels.Pairwise (· > ·)
  positive : ∀ w ∈ levels, 0 < w

structure Ordered (l : Layout) : Prop where
  inward : Inward l.levels
  top_le : l.top ≤ l.current

variable {l : Layout} {v w : Nat} {levels : List Nat}

theorem Inward.nil : Inward [] := ⟨.nil, by simp⟩

theorem Inward.suffix {inner : List Nat} (h : Inward levels) (suffix : inner <:+ levels) :
    Inward inner :=
  ⟨h.wider.sublist suffix.sublist, fun w hw => h.positive w (suffix.subset hw)⟩

theorem Inward.le_headD (h : Inward levels) : ∀ v ∈ levels, v ≤ levels.headD 0 := by
  intro v hv
  cases levels with
  | nil => contradiction
  | cons level levels =>
      obtain rfl | hv := List.mem_cons.1 hv
      · exact Nat.le_refl _
      · exact Nat.le_of_lt (List.rel_of_pairwise_cons h.wider hv)

theorem Inward.cons (h : Inward levels) (wider : levels.headD 0 < w) : Inward (w :: levels) :=
  ⟨.cons (fun v hv => Nat.lt_of_le_of_lt (h.le_headD v hv) wider) h.wider,
    List.forall_mem_cons.2 ⟨Nat.zero_lt_of_lt wider, h.positive⟩⟩

theorem headD_dropWhile_le (levels : List Nat) (w : Nat) :
    (levels.dropWhile (w < ·)).headD 0 ≤ w := by
  have head := List.head?_dropWhile_not (fun level => decide (w < level)) levels
  cases rest : levels.dropWhile (w < ·) with
  | nil => exact Nat.zero_le w
  | cons level _ =>
      rw [rest] at head
      simpa using head

/-- What is left of the levels has the given width innermost if there is such a level, or if all is
left and the width is 0. -/
theorem Inward.headD_dropWhile_eq_iff (h : Inward levels) :
    (levels.dropWhile (w < ·)).headD 0 = w ↔ w = 0 ∨ w ∈ levels := by
  have inner : Inward (levels.dropWhile (w < ·)) := h.suffix (levels.dropWhile_suffix _)
  constructor
  · intro same
    cases rest : levels.dropWhile (w < ·) with
    | nil => exact .inl (by rw [← same, rest]; rfl)
    | cons level more =>
        rw [rest] at same
        refine .inr ((levels.dropWhile_sublist (w < ·)).subset ?_)
        rw [rest, ← same]
        exact List.mem_cons_self
  · intro level
    refine Nat.le_antisymm (headD_dropWhile_le levels w) ?_
    obtain rfl | level := level
    · exact Nat.zero_le _
    · -- the level is none of those that are left
      rw [← levels.takeWhile_append_dropWhile (p := (w < ·))] at level
      obtain left | stays := List.mem_append.1 level
      · have wider := List.all_eq_true.1 List.all_takeWhile w left
        simp at wider
      · exact inner.le_headD w stays

/-- What entering a line does, by its width. -/
theorem enter_cases (l : Layout) (w : Nat) :
    l.current < w ∧ l.enter w = ([.opened w], ⟨w :: l.levels, w⟩) ∨
      w < l.current ∧ l.enter w = ((l.levels.takeWhile (w < ·)).map .closed ++
        (if (l.levels.dropWhile (w < ·)).headD 0 = w then [] else [.misaligned w]),
        ⟨l.levels.dropWhile (w < ·), w⟩) ∨
      w = l.current ∧ l.enter w = ([], l) := by
  obtain wider | same | narrower := Nat.lt_trichotomy l.current w
  · exact .inl ⟨wider, if_pos wider⟩
  · exact .inr (.inr ⟨same.symm, by simp [enter, same]⟩)
  · exact .inr (.inl ⟨narrower, (if_neg (Nat.lt_asymm narrower)).trans (if_pos narrower)⟩)

theorem Ordered.enter (h : l.Ordered) (w : Nat) : (l.enter w).2.Ordered := by
  obtain ⟨wider, entered⟩ | ⟨-, entered⟩ | ⟨-, entered⟩ := l.enter_cases w <;> rw [entered]
  · exact ⟨h.inward.cons (Nat.lt_of_le_of_lt h.top_le wider), Nat.le_refl w⟩
  · exact ⟨h.inward.suffix (l.levels.dropWhile_suffix _), headD_dropWhile_le l.levels w⟩
  · exact h

private theorem misaligned_mem_iff {closings : List Nat} {aligned : Prop} [Decidable aligned] :
    .misaligned v ∈ closings.map Change.closed ++ (if aligned then [] else [.misaligned w]) ↔
      v = w ∧ ¬ aligned := by
  split <;> simp [*]

theorem Ordered.misaligned_mem_enter_iff (h : l.Ordered) :
    .misaligned v ∈ (l.enter w).1 ↔ v = w ∧ w < l.current ∧ w ≠ 0 ∧ w ∉ l.levels := by
  obtain ⟨wider, entered⟩ | ⟨narrower, entered⟩ | ⟨same, entered⟩ :=
    l.enter_cases w <;> rw [entered]
  · simp [Nat.lt_asymm wider]
  · rw [misaligned_mem_iff, h.inward.headD_dropWhile_eq_iff, not_or]
    simp [narrower]
  · simp [same]

/-- A line that changes the width entered last is the innermost block unless it is misaligned. -/
theorem enter_current_ne_iff (l : Layout) (w : Nat) :
    (l.enter w).2.current ≠ (l.enter w).2.top ↔
      if w = l.current then l.current ≠ l.top else .misaligned w ∈ (l.enter w).1 := by
  obtain ⟨wider, entered⟩ | ⟨narrower, entered⟩ | ⟨same, entered⟩ := l.enter_cases w
  · rw [if_neg (Nat.ne_of_gt wider), entered]
    simp [top]
  · rw [if_neg (Nat.ne_of_lt narrower), entered, misaligned_mem_iff]
    exact ⟨fun stray => ⟨rfl, Ne.symm stray⟩, fun stray => Ne.symm stray.2⟩
  · rw [if_pos same, entered]

end PasoFrontEnd.Layout
