import PasoFrontEnd.Proofs.Grammar.Editing
import PasoFrontEnd.Proofs.Grammar.Indentation
import PasoFrontEnd.Proofs.Layout.Correspondence
import PasoFrontEnd.Proofs.Scan.Modes
import PasoFrontEnd.Proofs.Scan.Places

/-!
Indentation is structure and nothing else. If the lines of a text get other spaces and tabs in
front, or tabs get another width, in such a way that the widths of the lines that count keep their
order, then the scan puts out the same tokens and errors on the same lines, and the parse has the
same outcome; only columns differ, and the widths that errors name.
-/

namespace PasoFrontEnd

/-! A text line by line. -/

namespace Piece

variable {gap : List Char} {code : List Piece}

/-- The code of a line, behind its indentation and in front of its newline: it is cut the same way
whatever lines follow. -/
structure Line (code : List Piece) : Prop where
  behind : Text.Behind (code.flatMap chars ++ ['\n'])
  sameLine : .newline ∉ code
  split : ∀ rest, split (code.flatMap chars ++ '\n' :: rest) = code ++ .newline :: split rest

/-- The text of a line and the text below it. -/
def lineAbove (gap : List Char) (code : List Piece) (rest : List Char) : List Char :=
  gap ++ (code.flatMap chars ++ '\n' :: rest)

theorem Line.split_lineAbove (line : Line code) (isGap : ∀ c ∈ gap, Text.isGap c)
    (rest : List Char) :
    Piece.split (lineAbove gap code rest) =
      gap.map blank ++ (code ++ .newline :: Piece.split rest) := by
  rw [lineAbove, split_append_of_isGap isGap, line.split]

theorem Line.logicalLines (line : Line code) (isGap : ∀ c ∈ gap, Text.isGap c) (rest : List Char) :
    Text.logicalLines (lineAbove gap code rest) =
      (gap ++ (code.flatMap chars ++ ['\n'])) :: Text.logicalLines rest := by
  have pieces := line.split_lineAbove isGap rest
  rw [← List.append_assoc] at pieces
  rw [logicalLines_append pieces (by simp [line.sameLine]), List.flatMap_cons, flatMap_chars_split]
  change [List.flatMap chars (gap.map blank ++ code) ++ '\n' :: []] ++ Text.logicalLines rest = _
  simp [List.flatMap_map, chars]

theorem Line.lineWidth?_lineAbove {tabWidth : Nat} (line : Line code)
    (isGap : ∀ c ∈ gap, Text.isGap c) (rest : List Char) :
    Layout.lineWidth? tabWidth (Piece.split (lineAbove gap code rest)) =
      if Text.takesPart (code.flatMap chars ++ ['\n']) then some (Layout.width tabWidth gap)
      else none := by
  have width := @Layout.lineWidth?_line tabWidth _ isGap _ line.behind (by simp) rest
  rwa [List.append_assoc] at width

/-- Texts line by line, from the last line on. -/
theorem line_induction {motive : List Char → Prop}
    (last : ∀ {gap code}, (∀ c ∈ gap, Text.isGap c) → Text.Behind code → .newline ∉ split code →
      motive (gap ++ code))
    (above : ∀ {gap code rest}, (∀ c ∈ gap, Text.isGap c) → Line code → motive rest →
      motive (lineAbove gap code rest))
    (cs : List Char) : motive cs := by
  induction hn : cs.length using Nat.strongRecOn generalizing cs with
  | _ n ih =>
      obtain ⟨gap, code, rfl, isGap, behind⟩ := Text.exists_gap_append cs
      -- the first newline that is a piece ends the line; those in string literals do not
      by_cases newline : .newline ∈ split code
      · obtain ⟨ps, qs, hsplit, sameLine⟩ := List.eq_append_cons_of_mem newline
        have below := @split_flatMap_chars (ps ++ [.newline]) qs code (by simp [hsplit])
        have whole : code = ps.flatMap chars ++ '\n' :: qs.flatMap chars := by
          have whole := flatMap_chars_split code
          rw [hsplit, List.flatMap_append, List.flatMap_cons] at whole
          exact whole.symm
        generalize qs.flatMap chars = rest at below whole
        subst whole below
        have head : (ps.flatMap chars ++ ['\n']).head? =
            (ps.flatMap chars ++ '\n' :: rest).head? := by
          simp [List.head?_append]
        refine above isGap ⟨Text.behind_of_notGap (head ▸ behind.notGap), sameLine,
          split_append_newline hsplit⟩ (ih _ ?_ rest rfl)
        · rw [← hn]
          simp only [List.length_append, List.length_cons]
          omega
      · exact last isGap behind newline

end Piece

namespace Text

open Piece

/-- The widths of the lines that count, from the first line on. -/
def widths (tabWidth : Nat) (cs : List Char) : List Nat :=
  ((logicalLines cs).filter takesPart).map fun line =>
    Layout.measure tabWidth (line.takeWhile isGap)

/-- The second text is the first one with other indentations. The lines that count have
corresponding widths, each of which is a machine word. -/
structure Reindented (R : Nat → Nat → Prop) (tabWidth tabWidth' : Nat) (cs cs' : List Char) :
    Prop where
  lines : (logicalLines cs').map (·.dropWhile isGap) = (logicalLines cs).map (·.dropWhile isGap)
  widths : Layout.Matched R (widths tabWidth cs) (widths tabWidth' cs')

variable {R : Nat → Nat → Prop} {tabWidth tabWidth' : Nat} {gap gap' rest rest' cs' : List Char}
  {code : List Piece}

theorem widths_lineAbove (line : Line code) (hgap : ∀ c ∈ gap, isGap c) (rest : List Char) :
    widths tabWidth (lineAbove gap code rest) =
      (if takesPart (code.flatMap chars ++ ['\n']) then [Layout.measure tabWidth gap] else []) ++
        widths tabWidth rest := by
  unfold widths
  rw [line.logicalLines hgap, List.filter_cons, takesPart_append hgap]
  split
  · rw [List.map_cons, line.behind.takeWhile_isGap hgap]
    rfl
  · rfl

theorem widths_last {code : List Char} (hgap : ∀ c ∈ gap, isGap c) (behind : Behind code)
    (last : .newline ∉ split code) :
    widths tabWidth (gap ++ code) =
      if takesPart code then [Layout.measure tabWidth gap] else [] := by
  have last' := mt (newline_mem_split_append_of_isGap hgap).1 last
  unfold widths
  rw [logicalLines_last last', List.filter_cons, takesPart_append hgap]
  split
  · rw [List.map_cons, behind.takeWhile_isGap hgap]
    rfl
  · rfl

theorem alike_width (hgap : ∀ c ∈ gap, isGap c) (hgap' : ∀ c ∈ gap', isGap c)
    (h : Layout.measure tabWidth gap < Word.size ∧ Layout.measure tabWidth' gap' < Word.size ∧
      R (Layout.measure tabWidth gap) (Layout.measure tabWidth' gap')) :
    R (Layout.width tabWidth gap) (Layout.width tabWidth' gap') := by
  obtain ⟨fits, fits', alike⟩ := h
  rwa [Layout.width_eq_measure hgap fits, Layout.width_eq_measure hgap' fits']

theorem exists_gap_of_dropWhile {line code : List Char} (h : line.dropWhile isGap = code) :
    ∃ gap, line = gap ++ code ∧ ∀ c ∈ gap, isGap c :=
  ⟨line.takeWhile isGap, by rw [← h, List.takeWhile_append_dropWhile],
    List.all_eq_true.1 List.all_takeWhile⟩

/-- The first line of the other text, with what the lines have in common. -/
theorem Reindented.above (line : Line code) (hgap : ∀ c ∈ gap, isGap c)
    (h : Reindented R tabWidth tabWidth' (lineAbove gap code rest) cs') :
    ∃ gap' rest', cs' = lineAbove gap' code rest' ∧ (∀ c ∈ gap', isGap c) ∧
      (takesPart (code.flatMap chars ++ ['\n']) →
        R (Layout.width tabWidth gap) (Layout.width tabWidth' gap')) ∧
      Reindented R tabWidth tabWidth' rest rest' := by
  obtain ⟨lines, widths⟩ := h
  rw [line.logicalLines hgap, List.map_cons, line.behind.dropWhile_isGap hgap] at lines
  obtain ⟨first, below, cut, head, tail⟩ := List.map_eq_cons_iff.1 lines
  obtain ⟨gap', rfl, hgap'⟩ := exists_gap_of_dropWhile head
  obtain rfl : lineAbove gap' code below.flatten = cs' := by
    rw [← flatten_logicalLines cs', cut]
    simp [lineAbove]
  rw [line.logicalLines hgap'] at cut
  rw [widths_lineAbove line hgap, widths_lineAbove line hgap'] at widths
  obtain ⟨width, widths⟩ := widths.line
  refine ⟨_, _, rfl, hgap', fun counts => alike_width hgap hgap' (width counts), ?_, widths⟩
  rw [(List.cons.inj cut).2, tail]

theorem Reindented.last {code : List Char} (hgap : ∀ c ∈ gap, isGap c) (behind : Behind code)
    (last : .newline ∉ split code)
    (h : Reindented R tabWidth tabWidth' (gap ++ code) cs') :
    ∃ gap', cs' = gap' ++ code ∧ (∀ c ∈ gap', isGap c) ∧
      (takesPart code → R (Layout.width tabWidth gap) (Layout.width tabWidth' gap')) := by
  obtain ⟨lines, widths⟩ := h
  have last' := mt (newline_mem_split_append_of_isGap hgap).1 last
  rw [logicalLines_last last', List.map_singleton, behind.dropWhile_isGap hgap] at lines
  obtain ⟨first, cut, head⟩ := List.map_eq_singleton_iff.1 lines
  obtain ⟨gap', rfl, hgap'⟩ := exists_gap_of_dropWhile head
  obtain rfl : gap' ++ code = cs' := by
    rw [← flatten_logicalLines cs', cut, List.flatten_singleton]
  rw [widths_last hgap behind last, widths_last hgap' behind last, ← List.append_nil (ite _ _ _),
    ← List.append_nil (ite _ [Layout.measure tabWidth' _] _)] at widths
  exact ⟨_, rfl, hgap', fun counts => alike_width hgap hgap' (widths.line.1 counts)⟩

end Text

namespace LexError

/-- The same fault, by corresponding widths. -/
def Fault.Alike (R : Nat → Nat → Prop) : Fault → Fault → Prop
  | .inconsistentDedent w, .inconsistentDedent w' => R w w'
  | fault, fault' => fault = fault'

/-- The same error on the same line, by corresponding widths. -/
structure Alike (R : Nat → Nat → Prop) (e e' : LexError) : Prop where
  fault : e.fault.Alike R e'.fault
  line : e'.location.line = e.location.line

end LexError

/-- Every place becomes the beginning of its line. -/
def Edit.withoutColumns : Edit where
  place loc := ⟨loc.line, 0⟩

open Edit (withoutColumns)

namespace Scan

/-- Corresponding events put out the same tokens and errors on the same lines. -/
structure Alike (R : Nat → Nat → Prop) (keep : Bool) (events events' : List Event) : Prop where
  tokens : (events'.flatMap (Event.tokens keep)).map withoutColumns.token =
    (events.flatMap (Event.tokens keep)).map withoutColumns.token
  errors : List.Forall₂ (LexError.Alike R) (events.flatMap Event.errors)
    (events'.flatMap Event.errors)

variable {R : Nat → Nat → Prop} {keep : Bool} {loc loc' : Location}

namespace Alike

theorem append {front front' back back' : List Event} (h : Alike R keep front front')
    (h' : Alike R keep back back') : Alike R keep (front ++ back) (front' ++ back') where
  tokens := by
    simp only [List.flatMap_append, List.map_append]
    rw [h.tokens, h'.tokens]
  errors := by
    simp only [List.flatMap_append]
    exact List.rel_append h.errors h'.errors

theorem cons {e e' : Event} {events events' : List Event} (h : Alike R keep [e] [e'])
    (h' : Alike R keep events events') : Alike R keep (e :: events) (e' :: events') := h.append h'

theorem piece (p : Piece) (line : loc'.line = loc.line) :
    Alike R keep [.piece p loc] [.piece p loc'] where
  tokens := by
    simp only [List.flatMap_singleton, Event.tokens]
    cases p.token? keep with
    | none => rfl
    | some _ => simp [Edit.token, withoutColumns, line]
  errors := by
    cases p with
    | quoted _ closed =>
        cases closed with
        | true => exact .nil
        | false => exact .cons ⟨rfl, line⟩ .nil
    | rejected c =>
        refine .cons ⟨?_, line⟩ .nil
        change LexError.Fault.Alike R (if c = '!' then _ else _) (if c = '!' then _ else _)
        split <;> rfl
    | _ => exact .nil

theorem layout {changes changes' : List Layout.Change}
    (h : List.Forall₂ (Layout.Change.Alike R) changes changes') (line : loc'.line = loc.line) :
    Alike R keep (changes.map (Event.layout · loc)) (changes'.map (Event.layout · loc')) := by
  induction h with
  | nil => exact ⟨rfl, .nil⟩
  | cons head _ ih =>
      refine cons ?_ ih
      cases head with
      | opened width | closed width =>
          exact ⟨by simp [Event.tokens, Edit.token, withoutColumns, line], .nil⟩
      | misaligned width => exact ⟨rfl, .cons ⟨width, line⟩ .nil⟩

theorem ended (depth : Nat) (line : loc'.line = loc.line) :
    Alike R keep [.ended depth loc] [.ended depth loc'] where
  tokens := by simp [Event.tokens, Edit.token, withoutColumns, line]
  errors := by
    simp only [List.flatMap_singleton, Event.errors]
    split
    · exact .nil
    · exact .cons ⟨rfl, line⟩ .nil

end Alike

theorem line_advance_gap {gap : List Char} (hgap : ∀ c ∈ gap, Text.isGap c) (loc : Location) :
    (loc.advance gap).line = loc.line := by
  rw [Location.line_advance, List.count_eq_zero.2 (Text.newline_not_mem_gap hgap), Nat.add_zero]

variable {o o' : ScanOptions} {l l' : Layout} {gap gap' : List Char} {code qs qs' : List Piece}

namespace Alike

/-- The same pieces put out the same, and what follows them is still on the same lines. -/
theorem pieceEvents (sameLine : .newline ∉ code) (line : loc'.line = loc.line)
    (more : ∀ {loc loc'}, loc'.line = loc.line →
      Alike R keep (pieceEvents o l loc qs) (pieceEvents o' l' loc' qs')) :
    Alike R keep (pieceEvents o l loc (code ++ qs)) (pieceEvents o' l' loc' (code ++ qs')) := by
  induction code generalizing loc loc' with
  | nil => exact more line
  | cons p code ih =>
      rw [List.mem_cons, not_or] at sameLine
      rw [List.cons_append, List.cons_append, pieceEvents_cons (Ne.symm sameLine.1),
        pieceEvents_cons (Ne.symm sameLine.1)]
      refine cons (piece p line) (ih sameLine.2 ?_)
      rw [Location.line_advance, Location.line_advance, line]

theorem gaps (hgap : ∀ c ∈ gap, Text.isGap c) (hgap' : ∀ c ∈ gap', Text.isGap c)
    (line : loc'.line = loc.line)
    (more : ∀ {loc loc'}, loc'.line = loc.line →
      Alike R keep (Scan.pieceEvents o l loc qs) (Scan.pieceEvents o' l' loc' qs')) :
    Alike R keep (Scan.pieceEvents o l loc (gap.map Piece.blank ++ qs))
      (Scan.pieceEvents o' l' loc' (gap'.map Piece.blank ++ qs')) := by
  have behind : (loc'.advance gap').line = (loc.advance gap).line := by
    rw [line_advance_gap hgap, line_advance_gap hgap', line]
  obtain ⟨tokens, errors⟩ := more behind
  constructor
  · rwa [flatMap_pieceEvents_gap (fun _ _ => rfl), flatMap_pieceEvents_gap (fun _ _ => rfl)]
  · rwa [flatMap_pieceEvents_gap (fun _ _ => rfl), flatMap_pieceEvents_gap (fun _ _ => rfl)]

/-- Lines of corresponding widths, with the same code behind the indentation. -/
theorem eventsFrom (mono : Layout.Monotone R) (h : Layout.Alike R l l')
    (line : loc'.line = loc.line)
    (hgap : ∀ c ∈ gap, Text.isGap c) (hgap' : ∀ c ∈ gap', Text.isGap c) (sameLine : .newline ∉ code)
    (width : Option.Rel R (Layout.lineWidth? o.tabWidth (gap.map Piece.blank ++ (code ++ qs)))
      (Layout.lineWidth? o'.tabWidth (gap'.map Piece.blank ++ (code ++ qs'))))
    (more : ∀ {l l' loc loc'}, Layout.Alike R l l' → loc'.line = loc.line →
      Alike R keep (Scan.pieceEvents o l loc qs) (Scan.pieceEvents o' l' loc' qs')) :
    Alike R keep (eventsFrom o l loc (gap.map Piece.blank ++ (code ++ qs)))
      (eventsFrom o' l' loc' (gap'.map Piece.blank ++ (code ++ qs'))) := by
  obtain ⟨changes, after⟩ := h.enterLine mono width
  refine append (layout changes ?_) (gaps hgap hgap' line fun line =>
    pieceEvents sameLine line fun line => more after line)
  rw [line_advance_indentation, line_advance_indentation, line]

end Alike

/-- The scans of a text and of its reindentation, line by line. -/
theorem alike_eventsFrom (mono : Layout.Monotone R) {cs cs' : List Char}
    (h : Text.Reindented R o.tabWidth o'.tabWidth cs cs') (layout : Layout.Alike R l l')
    (line : loc'.line = loc.line) :
    Alike R keep (eventsFrom o l loc (Piece.split cs))
      (eventsFrom o' l' loc' (Piece.split cs')) := by
  induction cs using Piece.line_induction generalizing cs' l l' loc loc' with
  | @last gap code hgap behind last =>
      obtain ⟨gap', rfl, hgap', width⟩ := h.last hgap behind last
      have widths := And.intro (@Layout.lineWidth?_last o.tabWidth _ _ hgap behind last)
        (@Layout.lineWidth?_last o'.tabWidth _ _ hgap' behind last)
      rw [Piece.split_append_of_isGap hgap, Piece.split_append_of_isGap hgap'] at widths ⊢
      rw [← List.append_nil (Piece.split code)] at widths ⊢
      refine Alike.eventsFrom mono layout line hgap hgap' last ?_ fun layout line => ?_
      -- a last line without code is the end of the input, of width 0 in both texts
      · rw [widths.1, widths.2]
        refine .some ?_
        split
        · rename_i counts
          exact width counts
        · exact mono.zero
      · have depth := layout.levels.length_eq
        rw [Scan.pieceEvents, Scan.pieceEvents, depth]
        exact .ended _ line
  | @above gap code rest hgap code' ih =>
      obtain ⟨gap', rest', rfl, hgap', width, below⟩ := h.above code' hgap
      have widths := And.intro (@code'.lineWidth?_lineAbove _ _ o.tabWidth hgap rest)
        (@code'.lineWidth?_lineAbove _ _ o'.tabWidth hgap' rest')
      rw [code'.split_lineAbove hgap, code'.split_lineAbove hgap'] at widths
      rw [code'.split_lineAbove hgap, code'.split_lineAbove hgap']
      refine Alike.eventsFrom mono layout line hgap hgap' code'.sameLine ?_ fun layout line => ?_
      · rw [widths.1, widths.2]
        split
        · rename_i counts
          exact .some (width counts)
        · exact .none
      · rw [pieceEvents_newline, pieceEvents_newline]
        refine .cons (.piece .newline line) (ih below layout ?_)
        exact congrArg (· + 1) line

end Scan

/-- Edited tokens, comments among them, have the edited outcome. -/
theorem Grammar.parse_edited (f : Edit) {ts : List Token}
    (ended : Ended (ts.filter (·.kind ≠ .comment))) :
    parse (ts.map f.token) = f.outcome (parse ts) := by
  rw [← parse_withoutComments ts, ← parse_map_token ended, ← parse_withoutComments (ts.map f.token),
    List.filter_map]
  rfl

/-- Two texts that differ in nothing but the spaces and tabs in front of their lines give the same
tokens and errors up to columns, and the same outcome, if the lines that count have widths in the
same order. Tabs may have another width as well; errors name corresponding widths. -/
theorem scan_reindent {source source' : String} {o o' : ScanOptions}
    (comments : o'.keepComments = o.keepComments)
    (lines : (Text.logicalLines source'.toList).map (·.dropWhile Text.isGap) =
      (Text.logicalLines source.toList).map (·.dropWhile Text.isGap))
    (fits : ∀ w ∈ Text.widths o.tabWidth source.toList, w < Word.size)
    (fits' : ∀ w ∈ Text.widths o'.tabWidth source'.toList, w < Word.size)
    (order : Layout.SameOrder (Text.widths o.tabWidth source.toList)
      (Text.widths o'.tabWidth source'.toList)) :
    let scan := Scan.ofString source o
    let scan' := Scan.ofString source' o'
    let R := Layout.Corresponds (Text.widths o.tabWidth source.toList)
      (Text.widths o'.tabWidth source'.toList)
    scan'.tokens.map withoutColumns.token = scan.tokens.map withoutColumns.token ∧
    List.Forall₂ (LexError.Alike R) scan.errors scan'.errors ∧
    withoutColumns.outcome (parse scan'.tokens) = withoutColumns.outcome (parse scan.tokens) := by
  intro scan scan' R
  have reindented : Text.Reindented R o.tabWidth o'.tabWidth source.toList source'.toList :=
    ⟨lines, fits, fits', fun p hp => List.mem_cons_of_mem _ hp⟩
  have start : Layout.Alike R {} {} := ⟨.nil, order.monotone.zero⟩
  obtain ⟨tokens, errors⟩ := @Scan.alike_eventsFrom R o.keepComments .start .start o o' {} {}
    order.monotone _ _ reindented start rfl
  rw [← Scan.tokens_ofString, ← comments, ← Scan.tokens_ofString] at tokens
  refine ⟨tokens, errors, ?_⟩
  rw [← Grammar.parse_edited _ (Grammar.ended_ofString source' o'), tokens,
    Grammar.parse_edited _ (Grammar.ended_ofString source o)]

/-- A block inside a block, a string literal over two lines, a comment and a blank line, and a line
that is aligned with no block. -/
def staggered : String :=
  "si (a)\n\tx = \"p\n q\"\n   ~ nota\n\n  \ty = 1\n   z = 2\nw = 3"

def restaggered : String :=
  "si (a)\n  x = \"p\n q\"\n\t\t~ nota\n \n\ty = 1\n z = 2\nw = 3"

theorem scan_restaggered :
    let scan := Scan.ofString staggered ⟨8, true⟩
    let scan' := Scan.ofString restaggered ⟨4, true⟩
    Text.widths 8 staggered.toList = [0, 8, 10, 3, 0] ∧
    Text.widths 4 restaggered.toList = [0, 2, 4, 1, 0] ∧
    scan.errors = [⟨.inconsistentDedent 3, ⟨7, 4⟩⟩] ∧
    scan'.errors = [⟨.inconsistentDedent 1, ⟨7, 2⟩⟩] ∧
    scan'.tokens.map withoutColumns.token = scan.tokens.map withoutColumns.token ∧
    List.Forall₂ (LexError.Alike (Layout.Corresponds [0, 8, 10, 3, 0] [0, 2, 4, 1, 0])) scan.errors
      scan'.errors ∧
    withoutColumns.outcome (parse scan'.tokens) = withoutColumns.outcome (parse scan.tokens) := by
  have widths : Text.widths 8 staggered.toList = [0, 8, 10, 3, 0] := by decide +kernel
  have widths' : Text.widths 4 restaggered.toList = [0, 2, 4, 1, 0] := by decide +kernel
  have order : Layout.SameOrder [0, 8, 10, 3, 0] [0, 2, 4, 1, 0] := ⟨by decide, by decide⟩
  have same := @scan_reindent staggered restaggered ⟨8, true⟩ ⟨4, true⟩ rfl (by decide +kernel)
    (by rw [widths]; decide) (by rw [widths']; decide) (by rw [widths, widths']; exact order)
  rw [widths, widths'] at same
  exact ⟨widths, widths', by decide +kernel, by decide +kernel, same⟩

end PasoFrontEnd
