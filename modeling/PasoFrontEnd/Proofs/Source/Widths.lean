import PasoFrontEnd.Proofs.Source.Builds

/-!
The widths that a scan measures and what comes of them. Spaces and tabs are summed up in machine
words. A checked build stops at a line that is wider than that; in a wrapping one its width comes
out smaller than it is, and what the scan does with the widths then depends on nothing else in the
text. A line opens a block exactly if its word is greater than that of the line entered before it,
and the two compare like the widths themselves as long as these are words.
-/

namespace PasoFrontEnd

/-- A line that is entered in a layout: its number in the text and its width. -/
structure Entry where
  number : Nat
  width : Nat
deriving DecidableEq, Repr

/-- The entry as a scan measures it. -/
def Entry.wrapped (e : Entry) : Entry := { e with width := e.width % Word.size }

theorem Entry.wrapped_of_lt {e : Entry} (fits : e.width < Word.size) : e.wrapped = e := by
  rw [wrapped, Nat.mod_eq_of_lt fits]

namespace Text

/-- The entries of lines from the given number on: lines that count with their spaces and tabs, and
the last line also if it does not count, as the end of the input. -/
def entries (tabWidth number : Nat) : List (List Char) → List Entry
  | [] => []
  | [last] => [⟨number,
      if takesPart last then Layout.measure tabWidth (last.takeWhile isGap) else 0⟩]
  | line :: below =>
    (if takesPart line then [⟨number, Layout.measure tabWidth (line.takeWhile isGap)⟩] else []) ++
      entries tabWidth (number + line.count '\n') below

variable {tabWidth number : Nat}

theorem entries_lineAbove {gap : List Char} {code : List Piece} (line : Piece.Line code)
    (hgap : ∀ c ∈ gap, isGap c) (rest : List Char) :
    entries tabWidth number (logicalLines (Piece.lineAbove gap code rest)) =
      (if takesPart (code.flatMap Piece.chars ++ ['\n'])
        then [⟨number, Layout.measure tabWidth gap⟩]
        else []) ++
        entries tabWidth (number + (code.flatMap Piece.chars).count '\n' + 1)
          (logicalLines rest) := by
  have count : (gap ++ (code.flatMap Piece.chars ++ ['\n'])).count '\n' =
      (code.flatMap Piece.chars).count '\n' + 1 := by
    rw [List.count_append, List.count_eq_zero.2 (newline_not_mem_gap hgap), List.count_append,
      List.count_singleton_self, Nat.zero_add]
  obtain ⟨next, below, lines⟩ : ∃ next below, logicalLines rest = next :: below :=
    List.exists_cons_of_ne_nil (cutFrom_ne_nil _ _)
  rw [line.logicalLines hgap, lines, entries, takesPart_append hgap,
    line.behind.takeWhile_isGap hgap, count, Nat.add_assoc]
  simp

theorem entries_last {gap code : List Char} (hgap : ∀ c ∈ gap, isGap c) (behind : Behind code)
    (last : .newline ∉ Piece.split code) :
    entries tabWidth number (logicalLines (gap ++ code)) =
      [⟨number, if takesPart code then Layout.measure tabWidth gap else 0⟩] := by
  have last' := mt (Piece.newline_mem_split_append_of_isGap hgap).1 last
  rw [Piece.logicalLines_last last', entries, takesPart_append hgap, behind.takeWhile_isGap hgap]

/-- The spaces and tabs in front of each line add up to a word. -/
def WidthsFit (tabWidth : Nat) (lines : List (List Char)) : Prop :=
  ∀ line ∈ lines, Layout.measure tabWidth (line.takeWhile isGap) < Word.size

instance (tabWidth : Nat) (lines : List (List Char)) : Decidable (WidthsFit tabWidth lines) :=
  inferInstanceAs (Decidable (∀ line ∈ lines, _))

theorem width_lt_of_mem_entries {lines : List (List Char)} (fit : WidthsFit tabWidth lines)
    {e : Entry} (h : e ∈ entries tabWidth number lines) : e.width < Word.size := by
  fun_induction entries tabWidth number lines with
  | case1 => contradiction
  | case2 number last =>
      rw [List.mem_singleton.1 h]
      change (if _ then _ else _) < _
      split
      · exact fit last List.mem_cons_self
      · decide
  | case3 number line below _ ih =>
      obtain h | h := List.mem_append.1 h
      · split at h
        · rw [List.mem_singleton.1 h]
          exact fit line List.mem_cons_self
        · contradiction
      · exact ih (fun line h => fit line (List.mem_cons_of_mem _ h)) h

/-- No width is out of proportion to the length of the text. -/
theorem widthsFit_of_length {cs : List Char} (short : (tabWidth + 1) * cs.length < Word.size) :
    WidthsFit tabWidth (logicalLines cs) := by
  intro line hline
  have gap := (line.takeWhile_sublist isGap).length_le
  have whole : line.length ≤ cs.length := by
    rw [← flatten_logicalLines cs]
    exact (List.sublist_flatten_of_mem hline).length_le
  exact Nat.lt_of_le_of_lt (Layout.measure_le _ _)
    (Nat.lt_of_le_of_lt (Nat.mul_le_mul_left _ (Nat.le_trans gap whole)) short)

end Text

namespace Layout

/-- The changes that lines make in turn, each with the number of its line. -/
def enterAll (l : Layout) : List Entry → List (Change × Nat)
  | [] => []
  | e :: entries => (l.enter e.width).1.map (·, e.number) ++ (l.enter e.width).2.enterAll entries

/-- The numbers of the lines that are wider than the line entered before them, the first of them
wider than the given width. -/
def rises (above : Nat) : List Entry → List Nat
  | [] => []
  | e :: entries => (if above < e.width then [e.number] else []) ++ rises e.width entries

def Change.isOpened : Change → Bool
  | opened _ => true
  | closed _ | misaligned _ => false

theorem filter_isOpened_enter (l : Layout) (w : Nat) :
    (l.enter w).1.filter Change.isOpened = if l.current < w then [.opened w] else [] := by
  unfold enter
  split
  · rfl
  · split
    · refine List.filter_eq_nil_iff.2 fun change h => ?_
      obtain h | h := List.mem_append.1 h
      · obtain ⟨level, -, rfl⟩ := List.mem_map.1 h
        simp [Change.isOpened]
      · split at h
        · contradiction
        · simp [List.mem_singleton.1 h, Change.isOpened]
    · rfl

/-- A block is opened where a line is wider than the one before it, wherever the open blocks are. -/
theorem filter_isOpened_enterAll (l : Layout) (entries : List Entry) :
    ((l.enterAll entries).filter (·.1.isOpened)).map Prod.snd = rises l.current entries := by
  -- the width entered last is remembered even where it is no level, so the levels play no part
  induction entries generalizing l with
  | nil => rfl
  | cons e entries ih =>
      have here : (((l.enter e.width).1.map (·, e.number)).filter (·.1.isOpened)).map Prod.snd =
          if l.current < e.width then [e.number] else [] := by
        rw [List.filter_map]
        change (((l.enter e.width).1.filter Change.isOpened).map _).map _ = _
        rw [filter_isOpened_enter]
        split <;> rfl
      rw [enterAll, List.filter_append, List.map_append, here, ih, enter_current, rises]

theorem mem_rises {first : Entry} {entries front back : List Entry} {above line : Entry}
    (split : first :: entries = front ++ above :: line :: back) (wider : above.width < line.width) :
    line.number ∈ rises first.width entries := by
  induction front generalizing first entries with
  | nil =>
      obtain ⟨rfl, rfl⟩ := List.cons.inj split
      rw [rises, if_pos wider]
      exact List.mem_cons_self
  | cons other front ih =>
      obtain ⟨rfl, more⟩ := List.cons.inj split
      obtain ⟨next, rest, rfl⟩ := List.exists_cons_of_ne_nil (l := entries) (by simp [more])
      exact List.mem_append_right _ (ih more)

end Layout

namespace Event

/-- What the event does to the open blocks, with the number of the line. -/
def changes : Event → List (Layout.Change × Nat)
  | layout change loc => [(change, loc.line)]
  | piece _ _ | ended _ _ => []

end Event

namespace Scan

variable {o : ScanOptions} {l : Layout} {loc : Location}

theorem changes_lineEvents (ps : List Piece) :
    (lineEvents o l loc ps).flatMap Event.changes =
      (l.enterLine o.tabWidth ps).1.map (·, loc.line) := by
  have place := line_advance_indentation loc ps
  rw [lineEvents]
  induction (l.enterLine o.tabWidth ps).1 with
  | nil => rfl
  | cons change changes ih =>
      rw [List.map_cons, List.flatMap_cons, ih, List.map_cons, Event.changes, place]
      rfl

/-- The entry of the line that begins here, if it is measured. -/
def entriesHere (o : ScanOptions) (loc : Location) (line : List Piece) : List Entry :=
  ((Layout.lineWidth? o.tabWidth line).map (Entry.mk loc.line)).toList

/-- The entries of the lines below this one. -/
def entriesBelow (o : ScanOptions) (loc : Location) : List Piece → List Entry
  | [] => []
  | .newline :: rest => entriesHere o (loc.next '\n') rest ++ entriesBelow o (loc.next '\n') rest
  | p :: rest => entriesBelow o (loc.advance p.chars) rest

theorem entriesBelow_cons {p : Piece} (sameLine : p ≠ .newline) (ps : List Piece) :
    entriesBelow o loc (p :: ps) = entriesBelow o (loc.advance p.chars) ps := by
  cases p <;> first | rfl | exact absurd rfl sameLine

theorem entriesBelow_append {ps : List Piece} (sameLine : .newline ∉ ps) (rest : List Piece) :
    entriesBelow o loc (ps ++ rest) =
      entriesBelow o (loc.advance (ps.flatMap Piece.chars)) rest := by
  induction ps generalizing loc with
  | nil => rfl
  | cons p ps ih =>
      rw [List.mem_cons, not_or] at sameLine
      rw [List.cons_append, entriesBelow_cons (Ne.symm sameLine.1), ih sameLine.2,
        List.flatMap_cons, Location.advance_append]

theorem enterAll_entriesHere (ps : List Piece) (below : List Entry) :
    l.enterAll (entriesHere o loc ps ++ below) =
      (l.enterLine o.tabWidth ps).1.map (·, loc.line) ++
        (l.enterLine o.tabWidth ps).2.enterAll below := by
  rw [entriesHere, Layout.enterLine]
  cases Layout.lineWidth? o.tabWidth ps <;> rfl

theorem changes_pieceEvents (ps : List Piece) :
    (pieceEvents o l loc ps).flatMap Event.changes = l.enterAll (entriesBelow o loc ps) := by
  fun_induction entriesBelow o loc ps generalizing l with
  | case1 => rfl
  | case2 loc rest ih =>
      rw [pieceEvents_newline, eventsFrom, List.flatMap_cons, List.flatMap_append,
        changes_lineEvents, ih, enterAll_entriesHere]
      rfl
  | case3 loc p rest sameLine ih =>
      rw [pieceEvents_cons sameLine, List.flatMap_cons, ih]
      rfl

/-- The lines that are measured in a text are those that are entered. -/
theorem entries_split (cs : List Char) :
    entriesHere o loc (Piece.split cs) ++ entriesBelow o loc (Piece.split cs) =
      (Text.entries o.tabWidth loc.line (Text.logicalLines cs)).map Entry.wrapped := by
  induction cs using Piece.line_induction generalizing loc with
  | @last gap code hgap behind last =>
      -- without code on it the last line is entered as the end of the input
      have width : Layout.lineWidth? o.tabWidth (Piece.split (gap ++ code)) =
          some ((if Text.takesPart code then Layout.measure o.tabWidth gap else 0) %
              Word.size) := by
        rw [Layout.lineWidth?_last hgap behind last, Layout.width_eq_mod hgap]
        split <;> rfl
      have sameLine := mt (Piece.newline_mem_split_append_of_isGap hgap).1 last
      have below := @entriesBelow_append o loc _ sameLine []
      rw [List.append_nil] at below
      rw [below, entriesHere, width, Text.entries_last hgap behind last]
      rfl
  | @above gap code rest hgap line ih =>
      have sameLine : .newline ∉ gap.map Piece.blank ++ code := by simp [line.sameLine]
      have indentation : (gap.map Piece.blank).flatMap Piece.chars = gap := by
        simp [List.flatMap_map, Piece.chars]
      have number :
          ((loc.advance ((gap.map Piece.blank ++ code).flatMap Piece.chars)).next '\n').line =
          loc.line + (code.flatMap Piece.chars).count '\n' + 1 := by
        change (loc.advance _).line + 1 = _
        rw [Location.line_advance, List.flatMap_append, indentation, List.count_append,
          List.count_eq_zero.2 (Text.newline_not_mem_gap hgap), Nat.zero_add]
      have below : entriesBelow o loc (Piece.split (Piece.lineAbove gap code rest)) =
          (Text.entries o.tabWidth (loc.line + (code.flatMap Piece.chars).count '\n' + 1)
            (Text.logicalLines rest)).map Entry.wrapped := by
        rw [line.split_lineAbove hgap, ← List.append_assoc, entriesBelow_append sameLine,
          entriesBelow, ih, number]
      rw [below, entriesHere, line.lineWidth?_lineAbove hgap, Layout.width_eq_mod hgap,
        Text.entries_lineAbove line hgap]
      cases Text.takesPart (code.flatMap Piece.chars ++ ['\n']) <;> rfl

/-- From the beginning of a line on, the lines of a text are entered in turn. -/
theorem changes_eventsFrom (cs : List Char) :
    (eventsFrom o l loc (Piece.split cs)).flatMap Event.changes =
      l.enterAll ((Text.entries o.tabWidth loc.line (Text.logicalLines cs)).map Entry.wrapped) := by
  rw [eventsFrom, List.flatMap_append, changes_lineEvents, changes_pieceEvents, ← entries_split,
    enterAll_entriesHere]

/-- The markers of beginning blocks stand on the lines that open a block. -/
theorem Nested.indents {last : Location} {levels : List Nat} {events : List Event}
    (h : Nested last levels events) (keep : Bool) :
    ((events.flatMap (Event.tokens keep)).filter (·.kind = .indent)).map (·.location.line) =
      ((events.flatMap Event.changes).filter (·.1.isOpened)).map Prod.snd := by
  induction h with
  | @piece levels p rest loc events stands _ ih =>
      have none : ((Event.piece p loc).tokens keep).filter (·.kind = .indent) = [] :=
        List.filter_eq_nil_iff.2 fun t ht => by simp [(Event.kind_of_mem_tokens stands ht).1]
      rw [List.flatMap_cons, List.filter_append, none]
      exact ih
  | opened _ ih => exact congrArg (_ :: ·) ih
  | closed _ ih | misaligned _ ih => exact ih
  | ended => simp [Event.tokens, Event.changes]

/-- A checked build stops exactly at the texts in which some line, counted in the layout or not, is
wider than a word can say, and no line is unless tabs are very wide or the text is very long; a
wrapping build stops at none. What their scan does to the open blocks is what the lines do that are
entered in turn, with widths that are cut down to machine words, which changes none of them where
all are words. A line opens a block exactly if its word is greater than that of the line entered
before it; so a line does that is wider than that one and whose width is a word. -/
theorem indents_rise (source : String) (o : ScanOptions) :
    let lines := Text.logicalLines source.toList
    let entries := Text.entries o.tabWidth 1 lines
    let scan := ofString source o
    let indented := (scan.tokens.filter (·.kind = .indent)).map (·.location.line)
    ofString? .checked source o =
      (if Text.WidthsFit o.tabWidth lines then some scan else none) ∧
    ofString? .wrapping source o = some scan ∧
    ((o.tabWidth + 1) * source.toList.length < Word.size → Text.WidthsFit o.tabWidth lines) ∧
    scan.events.flatMap Event.changes = Layout.enterAll {} (entries.map Entry.wrapped) ∧
    (Text.WidthsFit o.tabWidth lines → entries.map Entry.wrapped = entries) ∧
    indented = Layout.rises 0 (entries.map Entry.wrapped) ∧
    ∀ {front back : List Entry} {above line : Entry},
      ⟨0, 0⟩ :: entries = front ++ above :: line :: back → above.width < line.width →
        line.width < Word.size → line.number ∈ indented := by
  intro lines entries scan indented
  have changes :
      scan.events.flatMap Event.changes = Layout.enterAll {} (entries.map Entry.wrapped) :=
    changes_eventsFrom source.toList
  have rising : indented = Layout.rises 0 (entries.map Entry.wrapped) := by
    have opened : ((scan.events.flatMap Event.changes).filter (·.1.isOpened)).map Prod.snd =
        Layout.rises 0 (entries.map Entry.wrapped) := by
      rw [changes]
      exact Layout.filter_isOpened_enterAll {} _
    exact ((nested_ofChars o .start source.toList).indents o.keepComments).trans opened
  refine ⟨?checked, ?wrapping, Text.widthsFit_of_length, changes, fun fit => ?_, rising,
    fun {front back above line} split wider fits => ?_⟩
  case checked =>
    rw [ofString?, ofChars?_eq]
    simp only [Layout.summable_checked]
    rfl
  case wrapping =>
    rw [ofString?, ofChars?_eq, if_pos fun _ _ => Layout.summable_wrapping _ _]
    rfl
  · have exact (e : Entry) (he : e ∈ entries) : e.wrapped = id e :=
      Entry.wrapped_of_lt (Text.width_lt_of_mem_entries fit he)
    rw [List.map_congr_left exact, List.map_id]
  · have words : above.wrapped.width < line.wrapped.width := by
      rwa [Entry.wrapped_of_lt fits, Entry.wrapped_of_lt (Nat.lt_trans wider fits)]
    have split' := congrArg (List.map Entry.wrapped) split
    rw [List.map_append, List.map_cons, List.map_cons, List.map_cons] at split'
    rw [rising]
    exact Layout.mem_rises split' words

/-- Tabs whose width is half the number of machine words. -/
def wideTabs : ScanOptions := ⟨0x8000000000000000, true⟩

/-- Three lines, each behind one tab more than the line above it. -/
def stairs : String := "a\n\tb\n\t\tc\n"

/-- Behind wide tabs the second line is wider than the first, and the third one is too wide, where a
checked build stops. Behind tabs of 8 columns all widths are words, and both lines open a block. -/
theorem indents_rise_stairs :
    let entries (o : ScanOptions) := Text.entries o.tabWidth 1 (Text.logicalLines stairs.toList)
    let indented (o : ScanOptions) :=
      ((ofString stairs o).tokens.filter (·.kind = .indent)).map (·.location.line)
    (entries wideTabs = [⟨1, 0⟩, ⟨2, 0x8000000000000000⟩, ⟨3, 0x10000000000000000⟩, ⟨4, 0⟩] ∧
      ofString? .checked stairs wideTabs = none ∧
      indented wideTabs = Layout.rises 0 ((entries wideTabs).map Entry.wrapped) ∧
      2 ∈ indented wideTabs) ∧
    ofString? .checked stairs {} = some (ofString stairs {}) ∧
      (entries {}).map Entry.wrapped = entries {} ∧ 2 ∈ indented {} ∧ 3 ∈ indented {} := by
  intro entries indented
  have wide : entries wideTabs =
      [⟨1, 0⟩, ⟨2, 0x8000000000000000⟩, ⟨3, 0x10000000000000000⟩, ⟨4, 0⟩] := by
    decide +kernel
  have narrow : entries {} = [⟨1, 0⟩, ⟨2, 8⟩, ⟨3, 16⟩, ⟨4, 0⟩] := by decide +kernel
  have tooWide : ¬ Text.WidthsFit wideTabs.tabWidth (Text.logicalLines stairs.toList) := by
    decide +kernel
  obtain ⟨checked, -, -, -, -, rises, wider⟩ := indents_rise stairs wideTabs
  obtain ⟨through, -, short, -, exact, -, wider'⟩ := indents_rise stairs {}
  have fit := short (by decide +kernel)
  have second : (⟨0, 0⟩ : Entry) :: entries wideTabs = [⟨0, 0⟩] ++ ⟨1, 0⟩ ::
      ⟨2, 0x8000000000000000⟩ :: [⟨3, 0x10000000000000000⟩, ⟨4, 0⟩] := by
    rw [wide]
    rfl
  have second' : (⟨0, 0⟩ : Entry) :: entries {} =
      [⟨0, 0⟩] ++ ⟨1, 0⟩ :: ⟨2, 8⟩ :: [⟨3, 16⟩, ⟨4, 0⟩] := by
    rw [narrow]
    rfl
  have third' : (⟨0, 0⟩ : Entry) :: entries {} =
      [⟨0, 0⟩, ⟨1, 0⟩] ++ ⟨2, 8⟩ :: ⟨3, 16⟩ :: [⟨4, 0⟩] := by
    rw [narrow]
    rfl
  refine ⟨⟨wide, ?_, rises, wider second (by decide) (by decide)⟩, ?_, exact fit,
    wider' second' (by decide) (by decide), wider' third' (by decide) (by decide)⟩
  · rw [checked, if_neg tooWide]
  · rw [through, if_pos fit]

/-- A line behind two tabs below one without any: a checked build stops there, and in a wrapping one
the width starts again at zero and no block is opened. -/
theorem indents_miss_tooWide :
    let source := "a\n\t\tb\n"
    let scan := ofString source wideTabs
    Text.entries wideTabs.tabWidth 1 (Text.logicalLines source.toList) =
      [⟨1, 0⟩, ⟨2, 0x10000000000000000⟩, ⟨3, 0⟩] ∧
      (ofString? .checked source wideTabs).isNone ∧
      Layout.width wideTabs.tabWidth ['\t', '\t'] = 0 ∧
      scan.tokens.map Token.kind = [.identifier, .newline, .identifier, .newline, .eof] ∧
      scan.errors = [] := by
  decide +kernel

end Scan

end PasoFrontEnd
