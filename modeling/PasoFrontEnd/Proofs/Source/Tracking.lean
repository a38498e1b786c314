import PasoFrontEnd.Proofs.Scan.Traces
import PasoFrontEnd.Proofs.Source.Widths
import PasoFrontEnd.Proofs.Layout.Levels

/-!
The layout of a scan on its way. A scan reads a text piece by piece and enters a line behind each
newline; wherever it stands, the widths of the open blocks are the stack that its block markers
leave, they grow inwards, and the width entered last is that of the innermost block unless the line
that brought it was reported as misaligned.
-/

namespace PasoFrontEnd

namespace Mark

variable {levels levels' : List Nat} {marks more : List Mark}

theorem follow?_append (levels : List Nat) (marks more : List Mark) :
    follow? levels (marks ++ more) = (follow? levels marks).bind (follow? · more) := by
  fun_induction follow? levels marks with
  | case1 => rfl
  | case2 levels width loc marks ih => exact ih
  | case3 levels width loc marks top ih => exact (if_pos top).trans ih
  | case4 levels width loc marks other => exact if_neg other

/-- Every mark that begins a block adds a level, every other one takes one away. -/
theorem length_follow? (h : follow? levels marks = some levels') :
    levels.length + marks.countP (·.opens) = marks.countP (!·.opens) + levels'.length := by
  fun_induction follow? levels marks with
  | case1 levels =>
      obtain rfl := Option.some.inj h
      simp
  | case2 levels width loc marks ih =>
      have more := ih h
      simp only [List.length_cons, List.countP_cons] at more ⊢
      simp
      omega
  | case3 levels width loc marks top ih =>
      have more := ih h
      obtain ⟨rest, rfl⟩ := List.head?_eq_some_iff.1 top
      simp only [List.length_cons, List.countP_cons, List.tail_cons] at more ⊢
      simp
      omega
  | case4 => contradiction

end Mark

namespace Layout

/-- The layout behind some lines. -/
def enterLines (l : Layout) (lines : List Entry) : Layout :=
  lines.foldl (fun l e => (l.enter e.width).2) l

variable {l : Layout} {w : Nat} {loc : Location}

theorem enterLines_append (l : Layout) (lines more : List Entry) :
    l.enterLines (lines ++ more) = (l.enterLines lines).enterLines more :=
  List.foldl_append ..

theorem enterAll_append (l : Layout) (lines more : List Entry) :
    l.enterAll (lines ++ more) = l.enterAll lines ++ (l.enterLines lines).enterAll more := by
  induction lines generalizing l with
  | nil => rfl
  | cons e lines ih => rw [List.cons_append, enterAll, enterAll, ih, List.append_assoc]; rfl

theorem number_of_mem_enterAll {lines : List Entry} {change : Change × Nat}
    (h : change ∈ l.enterAll lines) :
    ∃ e ∈ lines, e.number = change.2 := by
  induction lines generalizing l with
  | nil => contradiction
  | cons e lines ih =>
      obtain h | h := List.mem_append.1 h
      · obtain ⟨_, -, rfl⟩ := List.mem_map.1 h
        exact ⟨e, List.mem_cons_self, rfl⟩
      · obtain ⟨e', he', number⟩ := ih h
        exact ⟨e', List.mem_cons_of_mem _ he', number⟩

/-- Of the changes of lines with different numbers, those with the number of a line are its own. -/
theorem mem_enterAll_iff {front back : List Entry} {e : Entry} {change : Change}
    (apart : (front ++ e :: back).Pairwise (·.number < ·.number)) :
    (change, e.number) ∈ l.enterAll (front ++ e :: back) ↔
      change ∈ ((l.enterLines front).enter e.width).1 := by
  obtain ⟨-, behind, between⟩ := List.pairwise_append.1 apart
  rw [enterAll_append, enterAll, List.mem_append, List.mem_append]
  constructor
  · rintro (h | h | h)
    · obtain ⟨e', he', number⟩ := number_of_mem_enterAll h
      exact absurd number (Nat.ne_of_lt (between e' he' e List.mem_cons_self))
    · obtain ⟨change', hchange, same⟩ := List.mem_map.1 h
      rwa [(Prod.mk.inj same).1] at hchange
    · obtain ⟨e', he', number⟩ := number_of_mem_enterAll h
      exact absurd number (Nat.ne_of_gt (List.rel_of_pairwise_cons behind he'))
  · exact fun h => .inr (.inl (List.mem_map_of_mem h))

theorem enterLines_current (l : Layout) (lines : List Entry) :
    (l.enterLines lines).current = lines.getLast?.elim l.current Entry.width := by
  obtain rfl | ⟨front, e, rfl⟩ := lines.eq_nil_or_concat
  · rfl
  · rw [List.concat_eq_append, enterLines_append, List.getLast?_append_cons]
    exact enter_current _ _

theorem Ordered.enterLines (h : l.Ordered) (lines : List Entry) : (l.enterLines lines).Ordered := by
  induction lines generalizing l with
  | nil => exact h
  | cons e lines ih => exact ih (h.enter e.width)

/-- Lines of one width do not change what is remembered. -/
theorem enterLines_current_of_same (l : Layout) {front back : List Entry} {e : Entry}
    (same : ∀ e' ∈ back, e'.width = e.width) :
    (l.enterLines (front ++ e :: back)).current = e.width := by
  rw [enterLines_current, List.getLast?_append_cons]
  obtain rfl | ⟨back, e', rfl⟩ := back.eq_nil_or_concat
  · rfl
  · rw [List.concat_eq_append] at same ⊢
    rw [← List.cons_append, List.getLast?_concat]
    exact same e' (by simp)

/-- A line in front of which and behind which others stand is the last one, or the last one stands
behind it. -/
theorem append_singleton_eq {lines front back : List Entry} {last e : Entry}
    (whole : lines ++ [last] = front ++ e :: back) :
    front = lines ∧ e = last ∧ back = [] ∨
    ∃ more, back = more ++ [last] ∧ lines = front ++ e :: more := by
  obtain rfl | ⟨more, e', rfl⟩ := back.eq_nil_or_concat
  · obtain ⟨rfl, rfl⟩ := List.append_singleton_inj.1 whole
    exact .inl ⟨rfl, rfl, rfl⟩
  · rw [List.concat_eq_append, ← List.cons_append, ← List.append_assoc] at whole
    obtain ⟨rfl, rfl⟩ := List.append_singleton_inj.1 whole
    exact .inr ⟨more, List.concat_eq_append, rfl⟩

/-- The width entered last is not that of the innermost block exactly if the last of the lines that
changed it was misaligned. -/
theorem enterLines_current_ne_iff (aligned : l.current = l.top) (lines : List Entry) :
    (l.enterLines lines).current ≠ (l.enterLines lines).top ↔
      ∃ front e back, lines = front ++ e :: back ∧ (l.enterLines front).current ≠ e.width ∧
        (∀ e' ∈ back, e'.width = e.width) ∧
          .misaligned e.width ∈ ((l.enterLines front).enter e.width).1 := by
  induction lines using List.reverseRecOn with
  | nil => simp [enterLines, aligned]
  | append_singleton lines last ih =>
      have entered : l.enterLines (lines ++ [last]) = ((l.enterLines lines).enter last.width).2 :=
        enterLines_append l lines [last]
      rw [entered, enter_current_ne_iff]
      -- the last line is the one that is asked for exactly if it changed the width
      split
      case isTrue unchanged =>
        rw [ih]
        constructor
        · rintro ⟨front, e, back, rfl, changed, same, misaligned⟩
          rw [enterLines_current_of_same l same] at unchanged
          refine ⟨front, e, back ++ [last], by simp, changed, ?_, misaligned⟩
          exact List.forall_mem_append.2 ⟨same, by simpa using unchanged⟩
        · rintro ⟨front, e, back, whole, changed, same, misaligned⟩
          obtain ⟨rfl, rfl, -⟩ | ⟨more, rfl, rfl⟩ := append_singleton_eq whole
          · exact absurd unchanged.symm changed
          · exact ⟨front, e, more, rfl, changed, (List.forall_mem_append.1 same).1, misaligned⟩
      case isFalse changed =>
        constructor
        · exact fun misaligned => ⟨lines, last, [], rfl, Ne.symm changed, by simp, misaligned⟩
        · rintro ⟨front, e, back, whole, -, same, misaligned⟩
          obtain ⟨rfl, rfl, -⟩ | ⟨more, rfl, rfl⟩ := append_singleton_eq whole
          · exact misaligned
          · obtain ⟨same, last⟩ := List.forall_mem_append.1 same
            rw [enterLines_current_of_same l same] at changed
            exact absurd (last _ (by simp)) changed

/-- The marks of a line begin and end blocks as its changes do. -/
theorem follow?_enter (l : Layout) (w : Nat) (loc : Location) :
    Mark.follow? l.levels (((l.enter w).1.map (Event.layout · loc)).filterMap Event.mark?) =
      some (l.enter w).2.levels :=
  enter_induction
    (motive := fun levels changes => Mark.follow? levels
      ((changes.map (Event.layout · loc)).filterMap Event.mark?) = some (l.enter w).2.levels)
    (fun _ entered => entered) (fun more => (if_pos rfl).trans more) (fun entered => entered) rfl

/-- Wherever a line is with its changes, the blocks that are open then stand inside each other. -/
theorem Ordered.follow?_prefix (h : l.Ordered) {part : List Event}
    (begun : part <+: (l.enter w).1.map (Event.layout · loc)) :
    ∃ levels, Mark.follow? l.levels (part.filterMap Event.mark?) = some levels ∧ Inward levels := by
  refine enter_induction (l := l) (w := w)
    (motive := fun levels changes => Inward levels → ∀ part,
      part <+: changes.map (Event.layout · loc) →
      ∃ levels', Mark.follow? levels (part.filterMap Event.mark?) = some levels' ∧ Inward levels')
    ?opened ?closed ?misaligned ?entered h.inward part begun
  case opened =>
    intro wider _ inward part begun
    obtain rfl | rfl : part = [] ∨ part = [.layout (.opened w) loc] := by
      simpa [List.prefix_cons_iff] using begun
    · exact ⟨_, rfl, inward⟩
    · exact ⟨_, rfl, inward.cons (Nat.lt_of_le_of_lt h.top_le wider)⟩
  case closed =>
    intro level levels changes more inward part begun
    obtain rfl | ⟨rest, rfl, begun'⟩ := List.prefix_cons_iff.1 begun
    · exact ⟨_, rfl, inward⟩
    · obtain ⟨levels', follows, inward'⟩ := more (inward.suffix (List.suffix_cons _ _)) rest begun'
      exact ⟨levels', (if_pos rfl).trans follows, inward'⟩
  case misaligned =>
    intro levels _ inward part begun
    obtain rfl | rfl : part = [] ∨ part = [.layout (.misaligned w) loc] := by
      simpa [List.prefix_cons_iff] using begun
    all_goals exact ⟨_, rfl, inward⟩
  case entered =>
    intro inward part begun
    obtain rfl := List.prefix_nil.1 begun
    exact ⟨_, rfl, inward⟩

end Layout

namespace Event

/-- Only lines that are misaligned are reported as such. -/
theorem inconsistentDedent_mem_errors_iff {event : Event} {width : Nat} {place : Location} :
    ⟨.inconsistentDedent width, place⟩ ∈ event.errors ↔
    event = .layout (.misaligned width) place := by
  cases event with
  | ended depth loc => by_cases outside : depth = 0 <;> simp [Event.errors, outside]
  | layout change loc => cases change <;> simp [Event.errors, eq_comm]
  | piece p loc =>
      cases p with
      | quoted body closed => cases closed <;> simp [Event.errors, Piece.fault?]
      | rejected c => by_cases negation : c = '!' <;> simp [Event.errors, Piece.fault?, negation]
      | _ => simp [Event.errors, Piece.fault?]

theorem misaligned_mem_changes_iff {event : Event} {width line : Nat} :
    (.misaligned width, line) ∈ event.changes ↔
      ∃ place : Location, place.line = line ∧ event = .layout (.misaligned width) place := by
  cases event with
  | layout change loc => simp [Event.changes, eq_comm, and_comm]
  | piece p loc | ended depth loc => simp [Event.changes]

end Event

namespace Scan

variable {keep : Bool} {events : List Event}

theorem markers_eq (marked : ∀ e ∈ events, markers keep [e] = e.mark?.toList.map Mark.token) :
    markers keep events = (events.filterMap Event.mark?).map Mark.token := by
  rw [List.filterMap_eq_flatMap_toList, List.map_flatMap]
  induction events with
  | nil => rfl
  | cons e events ih =>
      rw [List.forall_mem_cons] at marked
      rw [← List.singleton_append, markers_append, marked.1, ih marked.2]
      rfl

/-- Block markers are counted by the marks that they are put out for. -/
theorem countKind_eq_countP {marks : List Mark}
    (marked : markers keep events = marks.map Mark.token) (opens : Bool) :
    countKind (if opens then .indent else .dedent) (events.flatMap (Event.tokens keep)) =
      marks.countP (·.opens = opens) := by
  have only (t : Token) : decide (t.kind = if opens then .indent else .dedent) =
      (decide (t.kind = if opens then .indent else .dedent) && t.isMarker) := by
    cases opens <;> simp [Token.isMarker] <;> exact fun kind => by simp [kind]
  have marks_kind (m : Mark) : decide (m.token.kind = if opens then .indent else .dedent) =
      decide (m.opens = opens) := by
    unfold Mark.token
    cases opens <;> cases m.opens <;> rfl
  rw [countKind, funext only, ← List.countP_filter]
  change (markers keep events).countP _ = _
  rw [marked, List.countP_map]
  exact congrArg (marks.countP ·) (funext marks_kind)

/-- A scan on its way through a text: what it has met, the lines that it has measured, its layout,
and the place where it stands in front of the pieces that are left. -/
structure Progress where
  events : List Event
  measured : List Entry
  layout : Layout
  location : Location
  rest : List Piece

namespace Progress

/-- The line that begins here is entered, and measured if it takes part in the layout. -/
def enterLine (o : ScanOptions) (p : Progress) : Progress :=
  { p with
    events := p.events ++ lineEvents o p.layout p.location p.rest
    measured := p.measured ++ entriesHere o p.location p.rest
    layout := (p.layout.enterLine o.tabWidth p.rest).2 }

/-- The next piece is taken, up to the given pieces behind it. -/
def take (p : Progress) (q : Piece) (rest : List Piece) : Progress :=
  { p with
    events := p.events ++ [.piece q p.location]
    location := p.location.advance q.chars
    rest }

/-- One step: a piece is taken, and behind a newline a line is entered. -/
def next (o : ScanOptions) (p : Progress) : Progress :=
  match p.rest with
  | [] => p
  | .newline :: rest => (p.take .newline rest).enterLine o
  | q :: rest => p.take q rest

/-- The scan of a text behind the given number of pieces. -/
def after (o : ScanOptions) (loc : Location) (cs : List Char) : Nat → Progress
  | 0 => enterLine o ⟨[], [], {}, loc, Piece.split cs⟩
  | n + 1 => (after o loc cs n).next o

variable {o : ScanOptions} {loc : Location} {cs : List Char} {p : Progress}

theorem next_rest (p : Progress) : (p.next o).rest = p.rest.tail := by
  unfold next
  split
  case h_1 none => rw [none]; rfl
  case h_2 rest some => rw [some]; rfl
  case h_3 q rest _ some => rw [some]; rfl

theorem after_rest (n : Nat) : (after o loc cs n).rest = (Piece.split cs).drop n := by
  induction n with
  | zero => rfl
  | succ n ih => rw [after, next_rest, ih, List.tail_drop]

/-- What the scan has met and what it is still to meet do not change with a step. -/
theorem next_events (p : Progress) :
    (p.next o).events ++ pieceEvents o (p.next o).layout (p.next o).location (p.next o).rest =
      p.events ++ pieceEvents o p.layout p.location p.rest := by
  unfold next
  split
  case h_1 => rfl
  case h_2 rest some =>
    rw [some, pieceEvents_newline]
    simp only [enterLine, take, List.append_assoc, List.singleton_append]
    rfl
  case h_3 q rest inLine some =>
    rw [some, pieceEvents_cons (fun newline => inLine (newline ▸ rfl)), take, List.append_assoc,
      List.singleton_append]

theorem after_events (n : Nat) :
    (ofChars o loc cs).events = (after o loc cs n).events ++
      pieceEvents o (after o loc cs n).layout (after o loc cs n).location
        (after o loc cs n).rest := by
  induction n with
  | zero => rfl
  | succ n ih => rw [ih, after, next_events]

/-- Nor do the lines that it has measured and those that it is still to measure. -/
theorem next_entries (p : Progress) :
    (p.next o).measured ++ entriesBelow o (p.next o).location (p.next o).rest =
      p.measured ++ entriesBelow o p.location p.rest := by
  unfold next
  split
  case h_1 => rfl
  case h_2 rest some =>
    rw [some, entriesBelow]
    simp only [enterLine, take, List.append_assoc]
    rfl
  case h_3 q rest inLine some =>
    rw [some, entriesBelow_cons (fun newline => inLine (newline ▸ rfl)), take]

theorem after_entries (n : Nat) :
    (Text.entries o.tabWidth loc.line (Text.logicalLines cs)).map Entry.wrapped =
      (after o loc cs n).measured ++
        entriesBelow o (after o loc cs n).location (after o loc cs n).rest := by
  induction n with
  | zero => exact (entries_split cs).symm
  | succ n ih => rw [ih, after, next_entries]

/-- The scan of a text stands behind the given number of pieces. What it has met and measured is the
beginning of what there is to meet and to measure, and if it stands at the end of the text, the open
blocks are closed there. -/
structure IsAfter (o : ScanOptions) (loc : Location) (cs : List Char) (n : Nat) (p : Progress) :
    Prop where
  rest : p.rest = (Piece.split cs).drop n
  events : (ofChars o loc cs).events = p.events ++ pieceEvents o p.layout p.location p.rest
  entries : (Text.entries o.tabWidth loc.line (Text.logicalLines cs)).map Entry.wrapped =
    p.measured ++ entriesBelow o p.location p.rest
  ended : p.rest = [] → (ofChars o loc cs).tokens =
    p.events.flatMap (Event.tokens o.keepComments) ++
    List.replicate p.layout.levels.length ⟨.dedent, "", p.location⟩ ++ [⟨.eof, "", p.location⟩]

theorem after_isAfter (n : Nat) : (after o loc cs n).IsAfter o loc cs n where
  rest := after_rest n
  events := after_events n
  entries := after_entries n
  ended ends := by
    rw [tokens, after_events n, ends, List.flatMap_append, pieceEvents, List.append_assoc]
    exact congrArg _ (List.append_nil _)

/-- What holds of a scan as it begins, and is kept with every piece and every line, holds on its
way. -/
theorem after_induction {P : Progress → Prop} (start : P ⟨[], [], {}, loc, Piece.split cs⟩)
    (take : ∀ {p q rest}, P p → p.rest = q :: rest → P (p.take q rest))
    (enterLine : ∀ {p}, P p → P (p.enterLine o)) (n : Nat) : P (after o loc cs n) := by
  induction n with
  | zero => exact enterLine start
  | succ n ih =>
      rw [after, next]
      split
      case h_1 => exact ih
      case h_2 rest some => exact enterLine (take ih some)
      case h_3 q rest _ some => exact take ih some

/-- The layout is that of the measured lines, and its changes are theirs. -/
theorem after_measured (n : Nat) :
    (after o loc cs n).layout = Layout.enterLines {} (after o loc cs n).measured ∧
      (after o loc cs n).events.flatMap Event.changes =
        Layout.enterAll {} (after o loc cs n).measured := by
  refine after_induction (o := o)
    (P := fun p => p.layout = Layout.enterLines {} p.measured ∧
      p.events.flatMap Event.changes = Layout.enterAll {} p.measured) ⟨rfl, rfl⟩ ?take ?enterLine n
  case take =>
    intro p q rest ⟨layout, changes⟩ _
    refine ⟨layout, ?_⟩
    rw [Progress.take, List.flatMap_append, changes]
    exact List.append_nil _
  case enterLine =>
    intro p ⟨layout, changes⟩
    simp only [Progress.enterLine, List.flatMap_append, changes_lineEvents, changes]
    rw [Layout.enterLine, entriesHere]
    cases Layout.lineWidth? o.tabWidth p.rest with
    | none => exact ⟨by simpa using layout, by simp⟩
    | some width =>
        rw [Option.map_some, Option.toList_some, Layout.enterLines_append, Layout.enterAll_append,
          ← layout]
        exact ⟨rfl, by simp [Layout.enterAll]⟩

/-- Every line is measured once, in the order of the text. -/
theorem after_numbers (n : Nat) :
    (after o loc cs n).measured.Pairwise (·.number < ·.number) ∧
      ∀ e ∈ (after o loc cs n).measured, e.number ≤ (after o loc cs n).location.line := by
  have entered {p : Progress} (apart : p.measured.Pairwise (·.number < ·.number))
      (above : ∀ e ∈ p.measured, e.number < p.location.line) :
      (p.enterLine o).measured.Pairwise (·.number < ·.number) ∧
        ∀ e ∈ (p.enterLine o).measured, e.number ≤ (p.enterLine o).location.line := by
    simp only [enterLine, entriesHere]
    cases Layout.lineWidth? o.tabWidth p.rest with
    | none => simpa using ⟨apart, fun e he => Nat.le_of_lt (above e he)⟩
    | some width =>
        simp only [Option.map_some, Option.toList_some]
        refine ⟨List.pairwise_append.2 ⟨apart, List.pairwise_singleton .., by simpa using above⟩,
          List.forall_mem_append.2 ⟨fun e he => Nat.le_of_lt (above e he), by simp⟩⟩
  induction n with
  | zero => exact entered .nil (by simp)
  | succ n ih =>
      obtain ⟨apart, above⟩ := ih
      rw [after, next]
      split
      case h_1 => exact ⟨apart, above⟩
      case h_2 rest _ => exact entered apart fun e he => Nat.lt_succ_of_le (above e he)
      case h_3 q rest _ _ =>
        refine ⟨apart, fun e he => Nat.le_trans (above e he) ?_⟩
        rw [Progress.take, Location.line_advance]
        exact Nat.le_add_right _ _

/-- Every block that was begun is wider than the one around it, and the marks of the lines lead to
the blocks that are open. -/
structure Tracked (p : Progress) : Prop where
  ordered : p.layout.Ordered
  inward : ∀ part, part <+: p.events →
    ∃ levels, Mark.follow? [] (part.filterMap Event.mark?) = some levels ∧ Layout.Inward levels
  follows : Mark.follow? [] (p.events.filterMap Event.mark?) = some p.layout.levels

/-- Further marks are followed from the blocks that are open. -/
theorem Tracked.follow?_append (h : p.Tracked) (more : List Event) :
    Mark.follow? [] ((p.events ++ more).filterMap Event.mark?) =
      Mark.follow? p.layout.levels (more.filterMap Event.mark?) := by
  rw [List.filterMap_append, Mark.follow?_append, h.follows]
  rfl

theorem Tracked.take (h : p.Tracked) (q : Piece) (rest : List Piece) : (p.take q rest).Tracked where
  ordered := h.ordered
  inward part begun := by
    obtain rfl | begun := List.prefix_concat_iff.1 begun
    · exact ⟨p.layout.levels, h.follow?_append _, h.ordered.inward⟩
    · exact h.inward part begun
  follows := h.follow?_append _

theorem Tracked.enterLine (h : p.Tracked) : (p.enterLine o).Tracked := by
  unfold Progress.enterLine lineEvents Layout.enterLine
  generalize p.location.advance (Layout.indentation p.rest) = place
  cases Layout.lineWidth? o.tabWidth p.rest with
  | none => exact ⟨h.ordered, by simpa using h.inward, by simpa using h.follows⟩
  | some width =>
      refine ⟨h.ordered.enter width, fun part begun => ?_,
        (h.follow?_append _).trans (p.layout.follow?_enter width place)⟩
      obtain before | ⟨line, rfl⟩ :=
        List.prefix_or_prefix_of_prefix begun (List.prefix_append p.events _)
      · exact h.inward part before
      · rw [h.follow?_append]
        exact h.ordered.follow?_prefix ((List.prefix_append_right_inj p.events).1 begun)

theorem after_tracked (n : Nat) : (after o loc cs n).Tracked := by
  refine after_induction (P := Tracked) ?start (fun h _ => h.take _ _) (fun h => h.enterLine) n
  case start =>
    refine ⟨⟨.nil, Nat.le_refl 0⟩, fun part begun => ?_, rfl⟩
    obtain rfl := List.prefix_nil.1 begun
    exact ⟨[], rfl, .nil⟩

/-- The block markers that are put out on the way are the marks of lines. -/
theorem after_markers (n : Nat) : ∀ e ∈ (after o loc cs n).events,
    markers o.keepComments [e] = e.mark?.toList.map Mark.token := by
  refine (after_induction (o := o) (P := fun p => (∀ q ∈ p.rest, ∃ text, q.Stands text) ∧
    ∀ e ∈ p.events, markers o.keepComments [e] = e.mark?.toList.map Mark.token)
    ⟨fun q => Piece.exists_stands_of_mem_split, by simp⟩ ?take ?enterLine n).2
  case take =>
    intro p q rest ⟨stands, marked⟩ some
    obtain ⟨_, here⟩ := stands q (by simp [some])
    refine ⟨fun r hr => stands r (some ▸ List.mem_cons_of_mem _ hr),
      List.forall_mem_append.2 ⟨marked, ?_⟩⟩
    exact List.forall_mem_singleton.2 (markers_piece here _)
  case enterLine =>
    intro p ⟨stands, marked⟩
    refine ⟨stands, List.forall_mem_append.2 ⟨marked, fun e he => ?_⟩⟩
    obtain ⟨change, -, rfl⟩ := List.mem_map.1 he
    cases change <;> rfl

/-- The scan has reported that the line of the given number is misaligned, with the given width. -/
def Reports (p : Progress) (number width : Nat) : Prop :=
  ∃ place : Location, place.line = number ∧
    ⟨.inconsistentDedent width, place⟩ ∈ p.events.flatMap Event.errors

theorem reports_iff {number width : Nat} :
    p.Reports number width ↔ (.misaligned width, number) ∈ p.events.flatMap Event.changes := by
  simp only [Reports, List.mem_flatMap, Event.inconsistentDedent_mem_errors_iff,
    Event.misaligned_mem_changes_iff]
  constructor
  · rintro ⟨place, line, event, h, rfl⟩
    exact ⟨_, h, place, line, rfl⟩
  · rintro ⟨event, h, place, line, rfl⟩
    exact ⟨place, line, _, h, rfl⟩

/-- The widths are those of the blocks that the events leave open: the block markers follow them as
a stack, each marker of an end for the width that was put on it last, and they grow inwards. -/
structure OpenBehind (keep : Bool) (events : List Event) (levels : List Nat) : Prop where
  markers : Scan.markers keep events = (events.filterMap Event.mark?).map Mark.token
  follows : Mark.follow? [] (events.filterMap Event.mark?) = some levels
  inward : Layout.Inward levels
  count : countKind .indent (events.flatMap (Event.tokens keep)) =
    countKind .dedent (events.flatMap (Event.tokens keep)) + levels.length

theorem openBehind_of_prefix {n : Nat} {part : List Event} {levels : List Nat}
    (begun : part <+: (after o loc cs n).events)
    (follows : Mark.follow? [] (part.filterMap Event.mark?) = some levels)
    (inward : Layout.Inward levels) :
    OpenBehind o.keepComments part levels := by
  have marked := markers_eq fun e he => after_markers n e (begun.subset he)
  refine ⟨marked, follows, inward, ?_⟩
  have opens := countKind_eq_countP marked true
  have closes := countKind_eq_countP marked false
  have length := Mark.length_follow? follows
  simp only [Bool.decide_eq_true, Bool.decide_eq_false, if_true, Bool.false_eq_true, if_false,
    List.length_nil, Nat.zero_add] at opens closes length
  rw [opens, closes, length]

end Progress

open Progress

/-- The layout of a scan that has read any number of pieces. The widths of the open blocks grow
inwards, and the block markers that were put out follow them as a stack, in front of each marker and
behind it. No open block is wider than the line that was measured last, and the innermost one is as
wide unless the last line that changed the width was reported as misaligned. Only measured lines are
reported, each exactly if it is narrower than the measured line above it, not at the margin, and as
wide as no block that was open above it. -/
theorem layout_tracked (o : ScanOptions) (loc : Location) (cs : List Char) (n : Nat) :
    let p := after o loc cs n
    p.IsAfter o loc cs n ∧
    OpenBehind o.keepComments p.events p.layout.levels ∧
    (∀ part, part <+: p.events → ∃ levels, OpenBehind o.keepComments part levels) ∧
    p.layout.top ≤ p.layout.current ∧
    p.layout = Layout.enterLines {} p.measured ∧
    (p.layout.current ≠ p.layout.top ↔ ∃ front e back, p.measured = front ++ e :: back ∧
      (Layout.enterLines {} front).current ≠ e.width ∧ (∀ e' ∈ back, e'.width = e.width) ∧
      p.Reports e.number e.width) ∧
    (∀ number width, p.Reports number width → ∃ e ∈ p.measured, e.number = number) ∧
    ∀ {front back : List Entry} {e : Entry}, p.measured = front ++ e :: back → ∀ width,
      p.Reports e.number width ↔
        width = e.width ∧ width < front.getLast?.elim 0 Entry.width ∧ width ≠ 0 ∧
        width ∉ (Layout.enterLines {} front).levels := by
  intro p
  have tracked : p.Tracked := after_tracked n
  obtain ⟨layout, changes⟩ : p.layout = _ ∧ p.events.flatMap Event.changes = _ := after_measured n
  have apart : p.measured.Pairwise (·.number < ·.number) := (after_numbers n).1
  have reports {front back : List Entry} {e : Entry} (whole : p.measured = front ++ e :: back)
    (width : Nat) :
      p.Reports e.number width ↔
          .misaligned width ∈ ((Layout.enterLines {} front).enter e.width).1 := by
    rw [reports_iff, changes, whole]
    exact Layout.mem_enterAll_iff (whole ▸ apart)
  refine ⟨after_isAfter n,
    openBehind_of_prefix List.prefix_rfl tracked.follows tracked.ordered.inward,
    fun part begun => ?_, tracked.ordered.top_le, layout, ?_, fun number width reported => ?_,
    fun {front back e} whole width => ?_⟩
  · obtain ⟨levels, follows, inward⟩ := tracked.inward part begun
    exact ⟨levels, openBehind_of_prefix begun follows inward⟩
  · rw [layout, Layout.enterLines_current_ne_iff rfl]
    refine exists_congr fun front => exists_congr fun e => exists_congr fun back =>
      and_congr_right fun whole => ?_
    rw [reports whole]
  · rw [reports_iff, changes] at reported
    exact Layout.number_of_mem_enterAll reported
  · have start : ({} : Layout).Ordered := ⟨.nil, Nat.le_refl 0⟩
    rw [reports whole, (start.enterLines front).misaligned_mem_enter_iff, Layout.enterLines_current]
    refine and_congr_right fun same => ?_
    rw [same]

/-- Four lines, the last one between the two above it. -/
def ledge : String := "a\n    b\n        c\n      d"

/-- Behind the last line one of two blocks is open and the line is reported. -/
theorem layout_tracked_ledge :
    let p := after {} .start ledge.toList 25
    p.rest = [] ∧ p.measured = [⟨1, 0⟩, ⟨2, 4⟩, ⟨3, 8⟩] ++ ⟨4, 6⟩ :: [] ∧ p.layout = ⟨[4], 6⟩ ∧
      (∃ levels, OpenBehind true (p.events.take 20) levels) ∧ p.Reports 4 6 ∧
        p.layout.current ≠ p.layout.top ∧
      (ofChars {} .start ledge.toList).tokens = p.events.flatMap (Event.tokens true) ++
        [⟨.dedent, "", ⟨4, 8⟩⟩] ++ [⟨.eof, "", ⟨4, 8⟩⟩] := by
  intro p
  have ends : p.rest = [] := by decide +kernel
  have measured : p.measured = [⟨1, 0⟩, ⟨2, 4⟩, ⟨3, 8⟩] ++ ⟨4, 6⟩ :: [] := by decide +kernel
  have layout : p.layout = ⟨[4], 6⟩ := by decide +kernel
  have place : p.location = ⟨4, 8⟩ := by decide +kernel
  obtain ⟨here, -, prefixes, -, -, strays, -, reports⟩ := layout_tracked {} .start ledge.toList 25
  have reported : p.Reports 4 6 := (reports measured 6).2 (by decide +kernel)
  refine ⟨ends, measured, layout, prefixes _ (List.take_prefix 20 _), reported, ?_, ?_⟩
  · exact strays.2 ⟨_, _, [], measured, by decide +kernel, by simp, reported⟩
  · have closed := here.ended ends
    rwa [place, layout] at closed

end Scan

end PasoFrontEnd
