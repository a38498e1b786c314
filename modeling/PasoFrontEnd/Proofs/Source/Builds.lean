import PasoFrontEnd.Proofs.Source.Reindentation
import PasoFrontEnd.Scan.Build

/-!
What the build of the program means for a scan. A wrapping build scans every text, and a checked
build those whose lines all have a width that is a word; where it goes through, the widths it adds
up are the widths of the lines, and its scan is that of a wrapping build.
-/

namespace PasoFrontEnd

namespace Layout

/-- The sum of the indentation is a word, or the build does not ask for one. -/
def Summable (b : Word.Build) (tabWidth : Nat) (gap : List Char) : Prop :=
  b = .checked → measure tabWidth gap < Word.size

instance (b : Word.Build) (tabWidth : Nat) (gap : List Char) :
    Decidable (Summable b tabWidth gap) :=
  inferInstanceAs (Decidable (_ → _))

theorem summable_wrapping (tabWidth : Nat) (gap : List Char) : Summable .wrapping tabWidth gap :=
  nofun

theorem summable_checked {tabWidth : Nat} {gap : List Char} :
    Summable .checked tabWidth gap ↔ measure tabWidth gap < Word.size :=
  ⟨fun h => h rfl, fun h _ => h⟩

variable {b : Word.Build} {tabWidth : Nat} {gap : List Char}

theorem width?_wrapping (tabWidth : Nat) (gap : List Char) :
    width? .wrapping tabWidth gap = some (width tabWidth gap) :=
  List.foldlM_pure

/-- Every sum on the way is a word exactly if the last one is. -/
theorem width?_checked (hgap : ∀ c ∈ gap, Text.isGap c) :
    width? .checked tabWidth gap =
      if measure tabWidth gap < Word.size then some (measure tabWidth gap) else none := by
  have sums (w : Nat) (hw : w < Word.size) :
      gap.foldlM (fun w c => Word.add? w (if c = '\t' then tabWidth else 1)) w =
        if w + measure tabWidth gap < Word.size then some (w + measure tabWidth gap) else none := by
    induction gap generalizing w with
    | nil => exact (if_pos hw).symm
    | cons c gap ih =>
        have more := ih fun d hd => hgap d (List.mem_cons_of_mem c hd)
        rw [List.foldlM_cons, measure_cons (hgap c List.mem_cons_self), ← Nat.add_assoc]
        generalize (if c = '\t' then tabWidth else 1) = step
        by_cases word : w + step < Word.size
        · rw [Word.add?_eq_some word]
          exact more _ word
        · rw [Word.add?, if_neg word, if_neg (by omega)]
          rfl
  have whole := sums 0 (by decide)
  rwa [Nat.zero_add] at whole

theorem width?_eq (hgap : ∀ c ∈ gap, Text.isGap c) :
    width? b tabWidth gap =
      if Summable b tabWidth gap then some (width tabWidth gap) else none := by
  cases b with
  | wrapping => rw [width?_wrapping, if_pos (summable_wrapping tabWidth gap)]
  | checked =>
      simp only [width?_checked hgap, summable_checked]
      split
      case isTrue word => rw [width_eq_measure hgap word]
      case isFalse => rfl

theorem isGap_of_mem_indentation {ps : List Piece} {c : Char} (h : c ∈ indentation ps) :
    Text.isGap c := by
  obtain ⟨p, hp, hc⟩ := List.mem_flatMap.1 h
  have gap := List.all_eq_true.1 List.all_takeWhile p hp
  cases p with
  | blank d => rwa [List.mem_singleton.1 hc]
  | _ => contradiction

theorem enterLine?_eq (l : Layout) (ps : List Piece) :
    l.enterLine? b tabWidth ps =
      if Summable b tabWidth (indentation ps) then some (l.enterLine tabWidth ps) else none := by
  rw [enterLine?, width?_eq fun _ => isGap_of_mem_indentation]
  split
  case isTrue =>
    simp only [enterLine, lineWidth?, Option.bind_eq_bind, Option.bind_some]
    cases countedWidth? (width tabWidth (indentation ps)) ps <;> rfl
  case isFalse => rfl

end Layout

namespace Piece

/-- The indentations of the lines that begin behind these newlines. -/
def gapsBelow : List Piece → List (List Char)
  | [] => []
  | newline :: rest => Layout.indentation rest :: gapsBelow rest
  | _ :: rest => gapsBelow rest

theorem gapsBelow_cons {p : Piece} (sameLine : p ≠ newline) (ps : List Piece) :
    gapsBelow (p :: ps) = gapsBelow ps := by
  cases p <;> first | rfl | exact absurd rfl sameLine

theorem gapsBelow_append {ps : List Piece} (sameLine : newline ∉ ps) (rest : List Piece) :
    gapsBelow (ps ++ rest) = gapsBelow rest := by
  induction ps with
  | nil => rfl
  | cons p ps ih =>
      rw [List.mem_cons, not_or] at sameLine
      rw [List.cons_append, gapsBelow_cons (Ne.symm sameLine.1), ih sameLine.2]

/-- The lines of a text are those that begin with it and behind its newlines. -/
theorem gaps_split (cs : List Char) :
    Layout.indentation (split cs) :: gapsBelow (split cs) =
      (Text.logicalLines cs).map (List.takeWhile Text.isGap) := by
  induction cs using line_induction with
  | @last gap code hgap behind last =>
      have sameLine := mt (newline_mem_split_append_of_isGap hgap).1 last
      have below := gapsBelow_append sameLine []
      rw [List.append_nil] at below
      rw [below, split_takeWhile_isGap, logicalLines_last sameLine]
      rfl
  | @above gap code rest hgap line ih =>
      have sameLine : newline ∉ gap.map blank ++ code := by simp [line.sameLine]
      have first : (lineAbove gap code rest).takeWhile Text.isGap =
          (gap ++ (code.flatMap chars ++ ['\n'])).takeWhile Text.isGap := by
        have behind : Text.Behind (code.flatMap chars ++ '\n' :: rest) :=
          Text.behind_of_notGap (by simpa [List.head?_append] using line.behind.notGap)
        rw [line.behind.takeWhile_isGap hgap, lineAbove, behind.takeWhile_isGap hgap]
      have below := gapsBelow_append sameLine (newline :: split rest)
      rw [List.append_assoc, ← line.split_lineAbove hgap] at below
      rw [split_takeWhile_isGap, first, line.logicalLines hgap, List.map_cons, ← ih, below]
      rfl

end Piece

namespace Scan

variable {b : Word.Build} {o : ScanOptions} {l : Layout} {loc : Location}

theorem pieceEvents?_newline (ps : List Piece) :
    pieceEvents? b o l loc (.newline :: ps) =
      (l.enterLine? b o.tabWidth ps).bind fun (changes, after) =>
        (pieceEvents? b o after (loc.next '\n') ps).map fun more =>
          .piece .newline loc ::
            (changes.map (Event.layout · ((loc.next '\n').advance (Layout.indentation ps))) ++
              more) := by
  rw [pieceEvents?]
  cases l.enterLine? b o.tabWidth ps with
  | none => rfl
  | some entered => cases h : pieceEvents? b o entered.2 (loc.next '\n') ps <;> simp [h]

theorem pieceEvents?_cons {p : Piece} (sameLine : p ≠ .newline) (ps : List Piece) :
    pieceEvents? b o l loc (p :: ps) =
      (pieceEvents? b o l (loc.advance p.chars) ps).map (.piece p loc :: ·) := by
  cases p <;> first | rfl | exact absurd rfl sameLine

/-- A build goes through the lines below exactly if it can add up each of them. -/
theorem pieceEvents?_eq (ps : List Piece) :
    pieceEvents? b o l loc ps =
      if ∀ gap ∈ Piece.gapsBelow ps, Layout.Summable b o.tabWidth gap then
        some (pieceEvents o l loc ps)
      else none := by
  induction ps generalizing l loc with
  | nil => rfl
  | cons p ps ih =>
      by_cases newline : p = .newline
      · subst newline
        rw [pieceEvents?_newline, Layout.enterLine?_eq, Piece.gapsBelow, pieceEvents_newline,
          eventsFrom]
        simp only [List.forall_mem_cons]
        by_cases here : Layout.Summable b o.tabWidth (Layout.indentation ps)
        · simp only [here, if_true, Option.bind_some, ih, true_and]
          split <;> rfl
        · simp [here]
      · rw [pieceEvents?_cons newline, ih, Piece.gapsBelow_cons newline, pieceEvents_cons newline]
        split <;> rfl

theorem ofChars?_eq (cs : List Char) :
    ofChars? b o loc cs =
      if ∀ line ∈ Text.logicalLines cs,
        Layout.Summable b o.tabWidth (line.takeWhile Text.isGap) then
        some (ofChars o loc cs)
      else none := by
  have lines : (∀ line ∈ Text.logicalLines cs,
        Layout.Summable b o.tabWidth (line.takeWhile Text.isGap)) ↔
      ∀ gap ∈ Layout.indentation (Piece.split cs) :: Piece.gapsBelow (Piece.split cs),
        Layout.Summable b o.tabWidth gap := by
    rw [Piece.gaps_split, List.forall_mem_map]
  rw [ofChars?, Layout.enterLine?_eq]
  simp only [lines, List.forall_mem_cons]
  by_cases here : Layout.Summable b o.tabWidth (Layout.indentation (Piece.split cs))
  · simp only [here, if_true, pieceEvents?_eq, true_and]
    split <;> rfl
  · simp [here]

end Scan

end PasoFrontEnd
