import PasoFrontEnd.Proofs.Scan.Coverage

/-!
The width of a line of a text, by the number of the line. A scan counts the same width when it
enters the line, as long as the width is a word.
-/

namespace PasoFrontEnd

/-- The text from the beginning of a line on. Lines count from 1. -/
def Text.fromLine (cs : List Char) : Nat → List Char
  | 0 | 1 => cs
  | line + 2 => fromLine (cs.dropWhile (· ≠ '\n')).tail (line + 1)

theorem Text.fromLine_newline (cs : List Char) (line : Nat) :
    fromLine ('\n' :: cs) (line + 2) = fromLine cs (line + 1) := by
  rw [fromLine, List.dropWhile_cons_of_neg (by simp), List.tail_cons]

theorem Text.fromLine_cons {c : Char} (h : c ≠ '\n') (cs : List Char) (line : Nat) :
    fromLine (c :: cs) (line + 2) = fromLine cs (line + 2) := by
  rw [fromLine, List.dropWhile_cons_of_pos (by simpa using h), fromLine]

/-- Where a line begins, the text from that line on begins. -/
theorem Text.fromLine_append {front : List Char} (h : front = [] ∨ ∃ text, front = text ++ ['\n'])
    (cs : List Char) : fromLine (front ++ cs) (1 + front.count '\n') = cs := by
  obtain rfl | ⟨text, rfl⟩ := h
  · rfl
  · induction text with
    | nil =>
        rw [List.nil_append, List.count_singleton_self]
        exact fromLine_newline cs 0
    | cons c text ih =>
        obtain ⟨n, hn⟩ : ∃ n, (text ++ ['\n']).count '\n' = n + 1 := ⟨text.count '\n', by simp⟩
        rw [hn, Nat.add_comm] at ih
        by_cases hc : c = '\n'
        · subst hc
          rw [List.cons_append, List.count_cons_self, hn, List.cons_append, Nat.add_comm,
            fromLine_newline]
          exact ih
        · rw [List.cons_append, List.count_cons_of_ne hc, hn, List.cons_append, Nat.add_comm,
            fromLine_cons hc]
          exact ih

namespace Layout

/-- One for each space, and the given width for each tab. -/
def measure (tabWidth : Nat) (gap : List Char) : Nat := gap.count ' ' + tabWidth * gap.count '\t'

/-- The width of a line of a text: of the spaces and tabs that it begins with. -/
def lineWidth (tabWidth : Nat) (source : List Char) (line : Nat) : Nat :=
  measure tabWidth ((Text.fromLine source line).takeWhile Text.isGap)

theorem measure_cons {tabWidth : Nat} {c : Char} (h : Text.isGap c) (gap : List Char) :
    measure tabWidth (c :: gap) = (if c = '\t' then tabWidth else 1) + measure tabWidth gap := by
  obtain rfl | rfl : c = ' ' ∨ c = '\t' := by simpa [Text.isGap] using h
  · simp [measure]
    omega
  · simp [measure, Nat.mul_add]
    omega

/-- The sum is taken in machine words. -/
theorem width_eq_mod {tabWidth : Nat} {gap : List Char} (hgap : ∀ c ∈ gap, Text.isGap c) :
    width tabWidth gap = measure tabWidth gap % Word.size := by
  have fold (w : Nat) (hw : w < Word.size) :
      gap.foldl (fun w c => Word.add w (if c = '\t' then tabWidth else 1)) w =
        (w + measure tabWidth gap) % Word.size := by
    induction gap generalizing w with
    | nil => exact (Nat.mod_eq_of_lt hw).symm
    | cons c gap ih =>
        rw [List.foldl_cons, Word.add,
          ih (fun d hd => hgap d (by simp [hd])) _ (Nat.mod_lt _ (by decide)),
          Nat.mod_add_mod, measure_cons (hgap c (by simp)), Nat.add_assoc]
  exact (fold 0 (by decide)).trans (by rw [Nat.zero_add])

theorem width_eq_measure {tabWidth : Nat} {gap : List Char} (hgap : ∀ c ∈ gap, Text.isGap c)
    (h : measure tabWidth gap < Word.size) : width tabWidth gap = measure tabWidth gap := by
  rw [width_eq_mod hgap, Nat.mod_eq_of_lt h]

/-- A scan that enters a line measures the width of that line. -/
theorem width_indentation {tabWidth : Nat} {source front cs : List Char}
    (whole : front ++ cs = source) (head : front = [] ∨ ∃ text, front = text ++ ['\n'])
    (h : lineWidth tabWidth source (Location.behind front).line < Word.size) :
    width tabWidth (indentation (Piece.split cs)) =
      lineWidth tabWidth source (Location.behind front).line := by
  have hline : Text.fromLine source (Location.behind front).line = cs :=
    whole ▸ Text.fromLine_append head cs
  rw [lineWidth, hline] at h ⊢
  rw [Piece.split_takeWhile_isGap]
  exact width_eq_measure (List.all_eq_true.1 List.all_takeWhile) h

theorem measure_le (tabWidth : Nat) (gap : List Char) :
    measure tabWidth gap ≤ (tabWidth + 1) * gap.length := by
  have hspaces : gap.count ' ' ≤ gap.length := List.count_le_length
  have htabs := Nat.mul_le_mul_left tabWidth (List.count_le_length (a := '\t') (l := gap))
  rw [measure, Nat.succ_mul]
  omega

theorem lineWidth_le (tabWidth : Nat) (source : List Char) (line : Nat) :
    lineWidth tabWidth source line ≤ (tabWidth + 1) * source.length := by
  have hsuffix (line : Nat) : (Text.fromLine source line).length ≤ source.length := by
    fun_induction Text.fromLine source line with
    | case1 | case2 => exact Nat.le_refl _
    | case3 cs line ih =>
        have := (cs.dropWhile_sublist (· ≠ '\n')).length_le
        simp only [List.length_tail] at ih
        omega
  have htake := ((Text.fromLine source line).takeWhile_sublist Text.isGap).length_le
  exact Nat.le_trans (measure_le _ _) (Nat.mul_le_mul_left _ (Nat.le_trans htake (hsuffix line)))

end Layout

end PasoFrontEnd
