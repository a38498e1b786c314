import PasoFrontEnd.Layout

/-!
What a line does to the open blocks. It goes through its changes one by one, from the innermost
block on; behind them its width is remembered, and it is the width of the innermost block unless the
line is misaligned.
-/

namespace PasoFrontEnd.Layout

variable {l : Layout} {w : Nat}

/-- What holds behind a line holds in front of it, if every single change keeps it. -/
theorem enter_induction {motive : List Nat → List Change → Prop}
    (opened : l.current < w → motive (w :: l.levels) [] → motive l.levels [.opened w])
    (closed : ∀ {level levels changes}, motive levels changes →
      motive (level :: levels) (.closed level :: changes))
    (misaligned : ∀ {levels}, motive levels [] → motive levels [.misaligned w])
    (entered : motive (l.enter w).2.levels []) : motive l.levels (l.enter w).1 := by
  have closings {changes : List Change} (levels : List Nat)
      (h : motive (levels.dropWhile (w < ·)) changes) :
      motive levels ((levels.takeWhile (w < ·)).map .closed ++ changes) := by
    induction levels with
    | nil => exact h
    | cons level levels ih =>
        by_cases wider : w < level
        · rw [List.dropWhile_cons_of_pos (by simpa using wider)] at h
          rw [List.takeWhile_cons_of_pos (by simpa using wider)]
          exact closed (ih h)
        · rw [List.dropWhile_cons_of_neg (by simpa using wider)] at h
          rw [List.takeWhile_cons_of_neg (by simpa using wider)]
          exact h
  unfold enter at entered ⊢
  split
  case isTrue wider =>
    rw [if_pos wider] at entered
    exact opened wider entered
  case isFalse notWider =>
    rw [if_neg notWider] at entered
    split
    case isTrue narrower =>
      rw [if_pos narrower] at entered
      apply closings
      split
      · exact entered
      · exact misaligned entered
    case isFalse notNarrower =>
      rw [if_neg notNarrower] at entered
      exact entered

theorem enter_current (l : Layout) (w : Nat) : (l.enter w).2.current = w := by
  unfold enter
  split
  · rfl
  · split
    · rfl
    · exact Nat.le_antisymm (Nat.le_of_not_lt ‹_›) (Nat.le_of_not_lt ‹_›)

theorem enter_top (aligned : l.current = l.top) (consistent : Change.misaligned w ∉ (l.enter w).1) :
    (l.enter w).2.top = w := by
  unfold enter at consistent ⊢
  split
  case isTrue => rfl
  case isFalse notWider =>
    rw [if_neg notWider] at consistent
    split
    case isTrue narrower =>
      rw [if_pos narrower] at consistent
      simp only [List.mem_append, not_or] at consistent
      refine Decidable.byContradiction fun hne => consistent.2 ?_
      rw [if_neg (by exact hne)]
      exact List.mem_singleton_self _
    case isFalse notNarrower =>
      change l.top = w
      omega

end PasoFrontEnd.Layout
