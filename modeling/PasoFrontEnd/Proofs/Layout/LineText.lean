import PasoFrontEnd.Proofs.Layout.LineWidth
import PasoFrontEnd.Proofs.Scan.Reach

/-!
How a line counts in the layout, read off its text. A line that a newline ends takes part unless it
is blank or begins with a comment, whatever lines follow it.
-/

namespace PasoFrontEnd

namespace Text

/-- Whether a line counts with its own width: behind its spaces and tabs comes neither the end of
the line nor a comment. -/
def takesPart (line : List Char) : Bool :=
  match line.dropWhile isGap with
  | [] | '\n' :: _ | '\r' :: '\n' :: _ | '~' :: _ => false
  | _ => true

/-- What can stand behind the indentation of a line. -/
inductive Behind : List Char → Prop
  | ended : Behind []
  | newline (rest) : Behind ('\n' :: rest)
  | returned (rest) : Behind ('\r' :: '\n' :: rest)
  | comment (rest) : Behind ('~' :: rest)
  | code {c rest} (notGap : isGap c = false) (newline : c ≠ '\n') (comment : c ≠ '~')
      (noReturn : c = '\r' → rest.head? ≠ some '\n') : Behind (c :: rest)

variable {gap cs : List Char}

theorem behind_of_notGap (h : ∀ c ∈ cs.head?, isGap c = false) : Behind cs := by
  cases cs with
  | nil => exact .ended
  | cons c rest =>
      by_cases newline : c = '\n'
      · exact newline ▸ .newline rest
      by_cases comment : c = '~'
      · exact comment ▸ .comment rest
      by_cases noReturn : c = '\r' → rest.head? ≠ some '\n'
      · exact .code (h c rfl) newline comment noReturn
      · obtain ⟨rfl, ends⟩ : c = '\r' ∧ rest.head? = some '\n' := by
          simpa only [Classical.not_imp, not_not] using noReturn
        obtain ⟨rest, rfl⟩ := List.head?_eq_some_iff.1 ends
        exact .returned rest

theorem newline_not_mem_gap (hgap : ∀ c ∈ gap, isGap c) : '\n' ∉ gap :=
  fun h => absurd (hgap _ h) (by decide)

theorem Behind.notGap (h : Behind cs) : ∀ c ∈ cs.head?, isGap c = false := by
  cases h with
  | ended => simp
  | newline | returned | comment => simp [isGap]
  | code notGap => simpa using notGap

theorem Behind.dropWhile_isGap (h : Behind cs) (hgap : ∀ c ∈ gap, isGap c) :
    (gap ++ cs).dropWhile isGap = cs := by
  rw [List.dropWhile_append_of_pos hgap]
  cases cs with
  | nil => rfl
  | cons c cs => exact List.dropWhile_cons_of_neg (by simp [h.notGap c rfl])

theorem Behind.takeWhile_isGap (h : Behind cs) (hgap : ∀ c ∈ gap, isGap c) :
    (gap ++ cs).takeWhile isGap = gap := by
  rw [List.takeWhile_append_of_pos hgap]
  cases cs with
  | nil => simp
  | cons c cs => rw [List.takeWhile_cons_of_neg (by simp [h.notGap c rfl]), List.append_nil]

/-- A line is its indentation and what stands behind it. -/
theorem exists_gap_append (cs : List Char) :
    ∃ gap code, cs = gap ++ code ∧ (∀ c ∈ gap, isGap c) ∧ Behind code := by
  refine ⟨_, _, cs.takeWhile_append_dropWhile.symm, List.all_eq_true.1 List.all_takeWhile,
    behind_of_notGap fun c hc => ?_⟩
  have head := List.head?_dropWhile_not isGap cs
  rw [Option.mem_def.1 hc] at head
  simpa using head

theorem takesPart_append (hgap : ∀ c ∈ gap, isGap c) (line : List Char) :
    takesPart (gap ++ line) = takesPart line := by
  unfold takesPart
  rw [List.dropWhile_append_of_pos hgap]

theorem takesPart_cons {c : Char} {rest : List Char} (notGap : isGap c = false) (newline : c ≠ '\n')
    (comment : c ≠ '~') (noReturn : c = '\r' → rest.head? ≠ some '\n') :
    takesPart (c :: rest) = true := by
  unfold takesPart
  rw [List.dropWhile_cons_of_neg (by simp [notGap])]
  split
  case h_1 h => contradiction
  case h_2 h => exact absurd (List.cons.inj h).1 newline
  case h_3 h =>
    obtain ⟨isReturn, hrest⟩ := List.cons.inj h
    exact absurd (congrArg List.head? hrest) (noReturn isReturn)
  case h_4 h => exact absurd (List.cons.inj h).1 comment
  case h_5 => rfl

end Text

namespace Layout

variable {tabWidth : Nat} {ps qs : List Piece} {p : Piece} {gap code : List Char} {c : Char}

theorem lineWidth?_eq_width (line : ps.dropWhile Piece.isGap = p :: qs) (notBlank : p ≠ .newline)
    (noReturn : p = .blank '\r' → ∀ more, qs ≠ .newline :: more)
    (notComment : ∀ text, p ≠ .comment text) :
    lineWidth? tabWidth ps = some (width tabWidth (indentation ps)) := by
  unfold lineWidth? countedWidth?
  rw [line]
  split
  case h_1 h => contradiction
  case h_2 h => exact absurd (List.cons.inj h).1 notBlank
  case h_3 h => exact absurd (List.cons.inj h).2 (noReturn (List.cons.inj h).1 _)
  case h_4 h => exact absurd (List.cons.inj h).1 (notComment _)
  case h_5 => rfl

theorem dropWhile_isGap_append_newline (ps qs : List Piece) :
    (ps ++ .newline :: qs).dropWhile Piece.isGap = ps.dropWhile Piece.isGap ++ .newline :: qs := by
  induction ps with
  | nil => rfl
  | cons p ps ih =>
      simp only [List.cons_append, List.dropWhile_cons, ih]
      split <;> rfl

theorem indentation_append_newline (ps qs : List Piece) :
    indentation (ps ++ .newline :: qs) = indentation ps := by
  unfold indentation
  induction ps with
  | nil => rfl
  | cons p ps ih =>
      simp only [List.cons_append, List.takeWhile_cons]
      split
      · rw [List.flatMap_cons, ih, List.flatMap_cons]
      · rfl

/-- The lines behind a line do not matter to its width. -/
theorem lineWidth?_append_newline (ps qs qs' : List Piece) :
    lineWidth? tabWidth (ps ++ .newline :: qs) = lineWidth? tabWidth (ps ++ .newline :: qs') := by
  unfold lineWidth? countedWidth?
  rw [dropWhile_isGap_append_newline, dropWhile_isGap_append_newline, indentation_append_newline,
    indentation_append_newline]
  cases ps.dropWhile Piece.isGap with
  | nil => rfl
  | cons p line =>
      cases p with
      | comment text => simp
      | blank c =>
          by_cases isReturn : c = '\r'
          · subst isReturn
            cases line with
            | nil => rfl
            | cons q line => cases q <;> rfl
          · simp [isReturn]
      | _ => rfl

/-! The width of a line by what stands behind its indentation. -/

section Behind

variable (hgap : ∀ c ∈ gap, Text.isGap c)

include hgap

theorem dropWhile_isGap_split (behind : Text.Behind code) :
    (Piece.split (gap ++ code)).dropWhile Piece.isGap = Piece.split code := by
  rw [Piece.dropWhile_isGap_split, behind.dropWhile_isGap hgap]

theorem indentation_split (behind : Text.Behind code) :
    indentation (Piece.split (gap ++ code)) = gap := by
  rw [Piece.split_takeWhile_isGap, behind.takeWhile_isGap hgap]

/-- The end of the input counts as a line of width 0. -/
theorem lineWidth?_ended : lineWidth? tabWidth (Piece.split gap) = some 0 := by
  have line := dropWhile_isGap_split hgap .ended
  rw [List.append_nil] at line
  rw [lineWidth?, countedWidth?, line, Piece.split_nil]

theorem lineWidth?_newline (rest : List Char) :
    lineWidth? tabWidth (Piece.split (gap ++ '\n' :: rest)) = none := by
  rw [lineWidth?, countedWidth?, dropWhile_isGap_split hgap (.newline rest), Piece.split_cons]
  rfl

theorem lineWidth?_return (rest : List Char) :
    lineWidth? tabWidth (Piece.split (gap ++ '\r' :: '\n' :: rest)) = none := by
  rw [lineWidth?, countedWidth?, dropWhile_isGap_split hgap (.returned rest), Piece.split_cons,
    Piece.read_blank (by decide), Piece.split_cons]
  rfl

/-- A comment takes no part, or it is the end of the input. -/
theorem lineWidth?_comment (rest : List Char) :
    lineWidth? tabWidth (Piece.split (gap ++ '~' :: rest)) = if '\n' ∈
      rest then none else some 0 := by
  rw [lineWidth?, countedWidth?, dropWhile_isGap_split hgap (.comment rest), Piece.split_cons]
  change (if Piece.split (rest.dropWhile (· ≠ '\n')) = [] then some 0 else none) = _
  by_cases newline : '\n' ∈ rest
  · have follows : rest.dropWhile (· ≠ '\n') ≠ [] := fun ends => by
      simpa using List.dropWhile_eq_nil_iff.1 ends '\n' newline
    rw [if_pos newline, if_neg]
    obtain ⟨c, more, hmore⟩ := List.exists_cons_of_ne_nil follows
    rw [hmore, Piece.split_cons]
    exact List.cons_ne_nil _ _
  · have ends : rest.dropWhile (· ≠ '\n') = [] :=
      List.dropWhile_eq_nil_iff.2 fun c hc => by
        have apart : c ≠ '\n' := fun same => newline (same ▸ hc)
        simpa using apart
    rw [if_neg newline, ends, Piece.split_nil, if_pos rfl]

/-- Anything else counts with its width. -/
theorem lineWidth?_code (notGap : Text.isGap c = false) (newline : c ≠ '\n') (comment : c ≠ '~')
    (noReturn : c = '\r' → code.head? ≠ some '\n') :
    lineWidth? tabWidth (Piece.split (gap ++ c :: code)) = some (width tabWidth gap) := by
  have behind := Text.Behind.code notGap newline comment noReturn
  have begins := Piece.chars_append_read c code
  have line := dropWhile_isGap_split hgap behind
  rw [Piece.split_cons] at line
  rw [lineWidth?_eq_width line, indentation_split hgap behind]
  · intro isNewline
    rw [isNewline] at begins
    exact newline (List.cons.inj begins).1.symm
  · intro isBlank more hmore
    rw [isBlank] at begins
    obtain ⟨isReturn, rest⟩ := List.cons.inj begins
    change (Piece.read c code).2 = code at rest
    have whole := Piece.flatMap_chars_split code
    rw [← rest, hmore, rest] at whole
    exact noReturn isReturn.symm (congrArg List.head? whole.symm)
  · intro text isComment
    rw [isComment] at begins
    exact comment (List.cons.inj begins).1.symm

/-- A line that a newline ends counts with its width or not at all, whatever follows. -/
theorem lineWidth?_line {line : List Char} (behind : Text.Behind line) (newline : '\n' ∈ line)
    (rest : List Char) :
    lineWidth? tabWidth (Piece.split (gap ++ (line ++ rest))) =
      if Text.takesPart line then some (width tabWidth gap) else none := by
  cases behind with
  | ended => contradiction
  | newline _ => exact lineWidth?_newline hgap _
  | returned _ => exact lineWidth?_return hgap _
  | comment text =>
      have newline' : '\n' ∈ text ++ rest := List.mem_append_left _ (by simpa using newline)
      rw [List.cons_append, lineWidth?_comment hgap, if_pos newline']
      rfl
  | @code c text notGap notNewline comment noReturn =>
      have noReturn' : c = '\r' → (text ++ rest).head? ≠ some '\n' := by
        intro isReturn
        obtain ⟨d, text, rfl⟩ := List.exists_cons_of_ne_nil (l := text) fun none => by
          simp [none, Ne.symm notNewline] at newline
        exact noReturn isReturn
      rw [List.cons_append, lineWidth?_code hgap notGap notNewline comment noReturn',
        Text.takesPart_cons notGap notNewline comment noReturn]
      rfl

/-- The last line counts with its width, or as the end of the input. -/
theorem lineWidth?_last (behind : Text.Behind code) (last : .newline ∉ Piece.split code) :
    lineWidth? tabWidth (Piece.split (gap ++ code)) =
      some (if Text.takesPart code then width tabWidth gap else 0) := by
  cases behind with
  | ended =>
      rw [List.append_nil, lineWidth?_ended hgap]
      rfl
  | newline _ =>
      rw [Piece.split_cons] at last
      exact absurd List.mem_cons_self last
  | returned _ =>
      rw [Piece.split_cons, Piece.read_blank (by decide), Piece.split_cons] at last
      exact absurd (List.mem_cons_of_mem _ List.mem_cons_self) last
  | comment text =>
      have sameLine : '\n' ∉ text := by
        intro newline
        obtain ⟨front, back, rfl, sameLine⟩ := List.eq_append_cons_of_mem newline
        rw [Piece.split_cons, Piece.read_comment sameLine, Piece.split_cons] at last
        exact last (List.mem_cons_of_mem _ List.mem_cons_self)
      rw [lineWidth?_comment hgap, if_neg sameLine]
      rfl
  | code notGap notNewline comment noReturn =>
      rw [lineWidth?_code hgap notGap notNewline comment noReturn,
        Text.takesPart_cons notGap notNewline comment noReturn]
      rfl

end Behind

end Layout

end PasoFrontEnd
