import Mathlib.Data.List.Forall2
import PasoFrontEnd.Proofs.Layout.LineText

/-!
Widths stand for nothing but their order. Two layouts that have seen corresponding widths make
corresponding changes, as long as the correspondence keeps the order of the widths and the width 0.
-/

namespace PasoFrontEnd.Layout

/-- A correspondence of widths that keeps their order, with 0 for 0. -/
structure Monotone (R : Nat → Nat → Prop) : Prop where
  zero : R 0 0
  lt_iff : ∀ {a a' b b'}, R a a' → R b b' → (a < b ↔ a' < b')

/-- The widths of the same lines in two texts, in the same order, and with 0 for 0 and nothing
else. -/
structure SameOrder (ws ws' : List Nat) : Prop where
  lt_iff : ∀ p ∈ ws.zip ws', ∀ q ∈ ws.zip ws', p.1 < q.1 ↔ p.2 < q.2
  zero_iff : ∀ p ∈ ws.zip ws', p.1 = 0 ↔ p.2 = 0

/-- The widths of one line, or of the end of the input. -/
def Corresponds (ws ws' : List Nat) (w w' : Nat) : Prop := (w, w') ∈ (0, 0) :: ws.zip ws'

theorem SameOrder.monotone {ws ws' : List Nat} (h : SameOrder ws ws') :
    Monotone (Corresponds ws ws') where
  zero := List.mem_cons_self
  lt_iff := by
    intro a a' b b' ha hb
    obtain ha | ha := List.mem_cons.1 ha
    · obtain ⟨rfl, rfl⟩ := Prod.mk.inj ha
      obtain hb | hb := List.mem_cons.1 hb
      · obtain ⟨rfl, rfl⟩ := Prod.mk.inj hb
        exact Iff.rfl
      · have zero := h.zero_iff _ hb
        simp only at zero
        omega
    · obtain hb | hb := List.mem_cons.1 hb
      · obtain ⟨rfl, rfl⟩ := Prod.mk.inj hb
        simp
      · exact h.lt_iff _ ha _ hb

/-- Lines of one text and of another, side by side: machine words that correspond to each other. -/
structure Matched (R : Nat → Nat → Prop) (ws ws' : List Nat) : Prop where
  fits : ∀ w ∈ ws, w < Word.size
  fits' : ∀ w ∈ ws', w < Word.size
  alike : ∀ p ∈ ws.zip ws', R p.1 p.2

theorem Matched.line {R : Nat → Nat → Prop} {P : Prop} [Decidable P] {w w' : Nat}
    {ws ws' : List Nat}
    (h : Matched R ((if P then [w] else []) ++ ws) ((if P then [w'] else []) ++ ws')) :
    (P → w < Word.size ∧ w' < Word.size ∧ R w w') ∧ Matched R ws ws' := by
  by_cases counts : P
  · rw [if_pos counts, if_pos counts] at h
    exact ⟨fun _ => ⟨h.fits w (by simp), h.fits' w' (by simp), h.alike (w, w') (by simp)⟩,
      fun v hv => h.fits v (by simp [hv]), fun v hv => h.fits' v (by simp [hv]),
      fun p hp => h.alike p (by simp [hp])⟩
  · rw [if_neg counts, if_neg counts] at h
    exact ⟨fun counts' => absurd counts' counts, h⟩

/-- The same change, by corresponding widths. -/
inductive Change.Alike (R : Nat → Nat → Prop) : Change → Change → Prop
  | opened {w w'} (width : R w w') : Alike R (.opened w) (.opened w')
  | closed {w w'} (width : R w w') : Alike R (.closed w) (.closed w')
  | misaligned {w w'} (width : R w w') : Alike R (.misaligned w) (.misaligned w')

structure Alike (R : Nat → Nat → Prop) (l l' : Layout) : Prop where
  levels : List.Forall₂ R l.levels l'.levels
  current : R l.current l'.current

variable {R : Nat → Nat → Prop} {l l' : Layout} {w w' : Nat}

theorem Monotone.eq_iff (mono : Monotone R) {a a' b b' : Nat} (ha : R a a') (hb : R b b') :
    a = b ↔ a' = b' := by
  have less := mono.lt_iff ha hb
  have greater := mono.lt_iff hb ha
  omega

theorem Alike.top (h : Alike R l l') (mono : Monotone R) : R l.top l'.top := by
  obtain ⟨levels, -⟩ := h
  unfold Layout.top
  generalize l.levels = ls at levels ⊢
  generalize l'.levels = ls' at levels ⊢
  cases levels with
  | nil => exact mono.zero
  | cons head _ => exact head

/-- The blocks that are indented further than a line, and those that are not. -/
theorem Monotone.levels_alike (mono : Monotone R) (width : R w w') {levels levels' : List Nat}
    (h : List.Forall₂ R levels levels') :
    List.Forall₂ R (levels.takeWhile (w < ·)) (levels'.takeWhile (w' < ·)) ∧
      List.Forall₂ R (levels.dropWhile (w < ·)) (levels'.dropWhile (w' < ·)) := by
  induction h with
  | nil => exact ⟨.nil, .nil⟩
  | @cons level level' levels levels' head tail ih =>
      have wider := mono.lt_iff width head
      simp only [List.takeWhile_cons, List.dropWhile_cons, decide_eq_true_eq]
      by_cases h : w < level
      · rw [if_pos h, if_pos h, if_pos (wider.1 h), if_pos (wider.1 h)]
        exact ⟨.cons head ih.1, ih.2⟩
      · rw [if_neg h, if_neg h, if_neg (fun h' => h (wider.2 h')),
          if_neg (fun h' => h (wider.2 h'))]
        exact ⟨.nil, .cons head tail⟩

/-- Lines of corresponding widths make corresponding changes. -/
theorem Alike.enter (h : Alike R l l') (mono : Monotone R) (width : R w w') :
    List.Forall₂ (Change.Alike R) (l.enter w).1 (l'.enter w').1 ∧
      Alike R (l.enter w).2 (l'.enter w').2 := by
  have deeper := mono.lt_iff h.current width
  have shallower := mono.lt_iff width h.current
  unfold Layout.enter
  by_cases wider : l.current < w
  · rw [if_pos wider, if_pos (deeper.1 wider)]
    exact ⟨.cons (.opened width) .nil, .cons width h.levels, width⟩
  rw [if_neg wider, if_neg (fun wider' => wider (deeper.2 wider'))]
  by_cases narrower : w < l.current
  · rw [if_pos narrower, if_pos (shallower.1 narrower)]
    obtain ⟨closed, open'⟩ := mono.levels_alike width h.levels
    have after : Alike R ⟨l.levels.dropWhile (w < ·), w⟩ ⟨l'.levels.dropWhile (w' < ·), w'⟩ :=
      ⟨open', width⟩
    have aligned := mono.eq_iff (after.top mono) width
    refine ⟨List.rel_append (List.forall₂_map_left_iff.2 (List.forall₂_map_right_iff.2
      (closed.imp fun _ _ => .closed))) ?_, after⟩
    by_cases top : Layout.top ⟨l.levels.dropWhile (w < ·), w⟩ = w
    · rw [if_pos top, if_pos (aligned.1 top)]
      exact .nil
    · rw [if_neg top, if_neg (fun top' => top (aligned.2 top'))]
      exact .cons (.misaligned width) .nil
  · rw [if_neg narrower, if_neg (fun narrower' => narrower (shallower.2 narrower'))]
    exact ⟨.nil, h⟩

theorem Alike.enterLine (h : Alike R l l') (mono : Monotone R) {tabWidth tabWidth' : Nat}
    {ps ps' : List Piece}
    (width : Option.Rel R (lineWidth? tabWidth ps) (lineWidth? tabWidth' ps')) :
    List.Forall₂ (Change.Alike R) (l.enterLine tabWidth ps).1 (l'.enterLine tabWidth' ps').1 ∧
      Alike R (l.enterLine tabWidth ps).2 (l'.enterLine tabWidth' ps').2 := by
  unfold Layout.enterLine
  generalize lineWidth? tabWidth ps = w at width ⊢
  generalize lineWidth? tabWidth' ps' = w' at width ⊢
  cases width with
  | none => exact ⟨.nil, h⟩
  | some width => exact h.enter mono width

end PasoFrontEnd.Layout
