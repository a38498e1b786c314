import PasoFrontEnd.Proofs.Scan.Nesting

/-!
How many tokens and errors a scan puts out. A block takes two tokens without a character of their
own, but the line that begins it has an indentation, and no token stands for that; so there are at
most three tokens for two characters. Every error but two has a character of its own.
-/

namespace PasoFrontEnd

theorem Piece.length_split_le (cs : List Char) : (split cs).length ≤ cs.length := by
  fun_induction split cs with
  | case1 => exact Nat.le_refl _
  | case2 c cs ih => exact Nat.succ_le_succ (Nat.le_trans ih (length_read_le c cs))

namespace Scan

/-- How many tokens the events put out. -/
def tokenCount (o : ScanOptions) (events : List Event) : Nat :=
  (events.flatMap (Event.tokens o.keepComments)).length

variable {o : ScanOptions}

theorem tokenCount_append (o : ScanOptions) (events more : List Event) :
    tokenCount o (events ++ more) = tokenCount o events + tokenCount o more := by
  rw [tokenCount, List.flatMap_append, List.length_append, tokenCount, tokenCount]

theorem tokenCount_cons (o : ScanOptions) (e : Event) (events : List Event) :
    tokenCount o (e :: events) = (e.tokens o.keepComments).length + tokenCount o events := by
  rw [tokenCount, List.flatMap_cons, List.length_append, tokenCount]

theorem tokenCount_closed (o : ScanOptions) (loc : Location) (levels : List Nat) :
    tokenCount o ((levels.map Layout.Change.closed).map (Event.layout · loc)) = levels.length := by
  induction levels with
  | nil => rfl
  | cons level levels ih =>
      rw [List.map_cons, List.map_cons, tokenCount_cons, ih, Event.tokens, List.length_singleton,
        List.length_cons, Nat.add_comm]

/-- A line opens one block at most, and none without a width; the other changes end blocks. -/
theorem tokenCount_enter_le (o : ScanOptions) (l : Layout) (width : Nat) (loc : Location) :
    2 * tokenCount o ((l.enter width).1.map (Event.layout · loc)) +
        2 * (l.enter width).2.levels.length ≤
      2 * l.levels.length + if width = 0 then 0 else 4 := by
  unfold Layout.enter
  split
  case isTrue wider =>
    rw [if_neg (Nat.ne_zero_of_lt wider)]
    have opened : tokenCount o [.layout (.opened width) loc] = 1 := rfl
    simp only [List.map_cons, List.map_nil, opened, List.length_cons]
    omega
  case isFalse =>
    split
    case isTrue =>
      have whole := congrArg List.length (l.levels.takeWhile_append_dropWhile (p := (width < ·)))
      have misaligned (top : Nat) : tokenCount o
          ((if top = width then [] else [Layout.Change.misaligned width]).map
              (Event.layout · loc)) = 0 := by
        split <;> rfl
      rw [List.length_append] at whole
      simp only [List.map_append, tokenCount_append, tokenCount_closed, misaligned]
      omega
    case isFalse =>
      simp only [List.map_nil]
      exact Nat.le_trans (Nat.le_of_eq (Nat.zero_add _)) (Nat.le_add_right _ _)

/-- A line that begins with no space or tab counts with no width. -/
theorem lineWidth?_of_unindented {ps : List Piece} {tabWidth width : Nat}
    (unindented : ps.head?.any Piece.isGap = false)
    (h : Layout.lineWidth? tabWidth ps = some width) :
    width = 0 := by
  have indentation : Layout.indentation ps = [] := by
    cases ps with
    | nil => rfl
    | cons p ps =>
        have notGap : ¬ p.isGap := by simpa using unindented
        rw [Layout.indentation, List.takeWhile_cons_of_neg notGap, List.flatMap_nil]
  unfold Layout.lineWidth? Layout.countedWidth? at h
  rw [indentation] at h
  split at h
  all_goals first
    | contradiction
    | exact (Option.some.inj h).symm
    | split at h <;> first | contradiction | exact (Option.some.inj h).symm

theorem tokenCount_lineEvents_le (o : ScanOptions) (l : Layout) (loc : Location) (ps : List Piece) :
    2 * tokenCount o (lineEvents o l loc ps) + 2 * (l.enterLine o.tabWidth ps).2.levels.length ≤
      2 * l.levels.length + 4 * (ps.head?.any Piece.isGap).toNat := by
  unfold lineEvents Layout.enterLine
  split
  case h_1 => exact Nat.le_trans (Nat.le_of_eq (Nat.zero_add _)) (Nat.le_add_right _ _)
  case h_2 width h =>
    refine Nat.le_trans (tokenCount_enter_le o l width _) (Nat.add_le_add_left ?_ _)
    cases indented : ps.head?.any Piece.isGap with
    | true => split <;> decide
    | false => rw [if_pos (lineWidth?_of_unindented indented h)]; exact Nat.zero_le _

/-- A piece puts out one token at most; a space or tab puts out none. -/
theorem tokenCount_piece_le (o : ScanOptions) {p : Piece} {rest : List Char}
    (stands : p.Stands rest) (loc : Location) :
    2 * ((Event.piece p loc).tokens o.keepComments).length + 3 * p.isGap.toNat ≤
      3 * p.chars.length := by
  cases stands with
  | @blank c =>
      cases gap : Text.isGap c <;> simp [Event.tokens, Piece.token?, Piece.chars, Piece.isGap, gap]
  | lexeme _ nonempty =>
      have := List.length_pos_iff.2 nonempty
      simp only [Event.tokens, Piece.token?, Piece.chars, Piece.isGap, List.length_singleton,
        Bool.toNat_false]
      omega
  | comment =>
      simp only [Event.tokens, Piece.token?, Piece.chars, Piece.isGap, List.length_cons,
        Bool.toNat_false]
      cases o.keepComments <;> simp
      omega
  | newline | rejected => simp [Event.tokens, Piece.token?, Piece.chars, Piece.isGap]
  | closed | unclosed =>
      simp [Event.tokens, Piece.token?, Piece.chars, Piece.isGap]
      omega

/-- The pieces from here on put out three tokens for two characters at most, besides those that end
the open blocks and the input. A space or tab in front of them is not needed for that. -/
theorem tokenCount_pieceEvents_le (o : ScanOptions) (l : Layout) (loc : Location) {ps : List Piece}
    (hps : ∀ p ∈ ps, ∃ rest, p.Stands rest) :
    2 * tokenCount o (pieceEvents o l loc ps) + 3 * (ps.head?.any Piece.isGap).toNat ≤
      3 * (ps.flatMap Piece.chars).length + 2 * l.levels.length + 2 := by
  fun_induction pieceEvents o l loc ps with
  | case1 l loc =>
      simp [tokenCount, Event.tokens]
      omega
  | case2 l loc rest below ih =>
      have more := ih fun p hp => hps p (by simp [hp])
      have line := tokenCount_lineEvents_le o l below rest
      have indented := Bool.toNat_le (rest.head?.any Piece.isGap)
      simp only [List.cons_append, tokenCount_cons, tokenCount_append, List.flatMap_cons,
        List.length_append, List.head?_cons, Option.any_some]
      simp only [Event.tokens, Piece.token?, Piece.chars, Piece.isGap, List.length_singleton,
        Bool.toNat_false]
      omega
  | case3 l loc p rest _ ih =>
      obtain ⟨_, stands⟩ := hps p (by simp)
      have more := ih fun p hp => hps p (by simp [hp])
      have piece := tokenCount_piece_le o stands loc
      simp only [tokenCount_cons, List.flatMap_cons, List.length_append, List.head?_cons,
        Option.any_some]
      omega

/-- There are at most three tokens for two characters, besides the end of the input. -/
theorem length_tokens_ofString_le (source : String) (o : ScanOptions) :
    2 * (ofString source o).tokens.length ≤ 3 * source.length + 3 := by
  have line := tokenCount_lineEvents_le o {} .start (Piece.split source.toList)
  have pieces := tokenCount_pieceEvents_le o
    (Layout.enterLine {} o.tabWidth (Piece.split source.toList)).2 .start
    fun p (hp : p ∈ Piece.split source.toList) => Piece.exists_stands_of_mem_split hp
  rw [Piece.flatMap_chars_split, String.length_toList] at pieces
  have outside : ({} : Layout).levels.length = 0 := rfl
  have leading := Bool.toNat_le ((Piece.split source.toList).head?.any Piece.isGap)
  change 2 * tokenCount o (lineEvents o {} .start _ ++ pieceEvents o _ .start _) ≤ _
  rw [tokenCount_append]
  omega

/-- A line is misaligned once at most, whatever it closes. -/
theorem length_errors_lineEvents_le (o : ScanOptions) (l : Layout) (loc : Location)
    (ps : List Piece) :
    ((lineEvents o l loc ps).flatMap Event.errors).length ≤ 1 := by
  have closed (levels : List Nat) (loc : Location) :
      ((levels.map Layout.Change.closed).map (Event.layout · loc)).flatMap Event.errors = [] := by
    simp [Event.errors]
  unfold lineEvents Layout.enterLine
  split
  · exact Nat.zero_le _
  · unfold Layout.enter
    split
    · exact Nat.zero_le _
    · split
      · simp only [List.map_append, List.flatMap_append, closed, List.nil_append]
        split
        · exact Nat.zero_le _
        · exact Nat.le_refl _
      · exact Nat.zero_le _

/-- A newline is no error, but the line behind it may be misaligned. -/
theorem length_errors_pieceEvents_le (o : ScanOptions) (l : Layout) (loc : Location)
    (ps : List Piece) :
    ((pieceEvents o l loc ps).flatMap Event.errors).length ≤ ps.length + 1 := by
  fun_induction pieceEvents o l loc ps with
  | case1 l loc =>
      rw [List.flatMap_singleton, Event.errors]
      split <;> simp
  | case2 l loc rest below ih =>
      have line := length_errors_lineEvents_le o l below rest
      have newline : (Event.piece .newline loc).errors = [] := rfl
      simp only [List.cons_append, List.flatMap_cons, newline, List.nil_append, List.flatMap_append,
        List.length_append, List.length_cons]
      omega
  | case3 l loc p rest _ ih =>
      have piece : (Event.piece p loc).errors.length ≤ 1 := by
        rw [Event.errors]
        split <;> simp
      rw [List.flatMap_cons, List.length_append, List.length_cons]
      omega

/-- There are at most as many errors as characters, besides those at the two ends of the input. -/
theorem length_errors_ofString_le (source : String) (o : ScanOptions) :
    (ofString source o).errors.length ≤ source.length + 2 := by
  have line := length_errors_lineEvents_le o {} .start (Piece.split source.toList)
  have pieces := length_errors_pieceEvents_le o
    (Layout.enterLine {} o.tabWidth (Piece.split source.toList)).2 .start
      (Piece.split source.toList)
  have cut := Piece.length_split_le source.toList
  rw [String.length_toList] at cut
  change ((lineEvents o {} .start _ ++ pieceEvents o _ .start _).flatMap Event.errors).length ≤ _
  rw [List.flatMap_append, List.length_append]
  omega

end Scan

end PasoFrontEnd
