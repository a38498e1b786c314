import Mathlib.Data.List.Chain
import PasoFrontEnd.Proofs.Layout.LineWidth
import PasoFrontEnd.Proofs.Scan.Spelling

/-!
Texts in canonical layout: each line is indented by the same number of spaces for every block around
it, and has one space between its tokens. A scan gives back the tokens of the lines, with the
markers of the blocks between them.
-/

namespace PasoFrontEnd

/-- A line of code, inside the given number of blocks. -/
structure CodeLine where
  depth : Nat
  tokens : List (Token.Kind × List Char)
  nonempty : tokens ≠ []
  legible : Legible tokens
  /-- A line of nothing but a comment would take no part in the layout. -/
  noCommentFirst : ∀ t ∈ tokens.head?, t.1 ≠ .comment

namespace CodeLine

/-- The line as it is written, with its newline. -/
def text (unit : Nat) (line : CodeLine) : List Char :=
  List.replicate (unit * line.depth) ' ' ++ [' '].intercalate (line.tokens.map spelling) ++ ['\n']

/-- Kinds and lexemes of the tokens of lines that follow a line inside `depth` blocks, up to the end
of the input. -/
def scanned (depth : Nat) : List CodeLine → List (Token.Kind × List Char)
  | [] => List.replicate depth (.dedent, []) ++ [(.eof, [])]
  | line :: lines =>
    (if depth < line.depth then [(.indent, [])]
      else List.replicate (depth - line.depth) (.dedent, [])) ++
      line.tokens ++ (.newline, ['\n']) :: scanned line.depth lines

theorem text_eq (unit : Nat) (line : CodeLine) :
    ∃ t ts, line.tokens = t :: ts ∧ ∀ more, line.text unit ++ more =
      List.replicate (unit * line.depth) ' ' ++
        (spelling t ++ (spelledBehind ts ++ '\n' :: more)) := by
  obtain ⟨t, ts, hts⟩ := List.exists_cons_of_ne_nil line.nonempty
  have joined (t : Token.Kind × List Char) (ts : List (Token.Kind × List Char)) :
      [' '].intercalate ((t :: ts).map spelling) = spelling t ++ spelledBehind ts := by
    induction ts generalizing t with
    | nil => simp [List.intercalate, spelledBehind]
    | cons u ts ih =>
        have rest := ih u
        simp only [List.intercalate, List.map_cons, spelledBehind, List.flatMap_cons] at rest ⊢
        rw [List.intersperse_cons_cons, List.flatten_cons, List.flatten_cons, rest]
        simp
  refine ⟨t, ts, hts, fun more => ?_⟩
  rw [text, hts, joined]
  simp only [List.append_assoc, List.singleton_append]

end CodeLine

namespace Layout

/-- The widths of nested blocks that are each indented by one unit more, innermost first. -/
def widths (unit : Nat) : Nat → List Nat
  | 0 => []
  | depth + 1 => unit * (depth + 1) :: widths unit depth

def regular (unit depth : Nat) : Layout := ⟨widths unit depth, unit * depth⟩

variable {unit : Nat}

/-- Falling back to a smaller depth closes one block for each level of it. -/
theorem widths_wider (pos : 0 < unit) {depth depth' : Nat} (le : depth' ≤ depth) :
    ((widths unit depth).takeWhile (unit * depth' < ·)).length = depth - depth' ∧
      (widths unit depth).dropWhile (unit * depth' < ·) = widths unit depth' := by
  induction depth with
  | zero =>
      obtain rfl := Nat.le_zero.1 le
      exact ⟨rfl, rfl⟩
  | succ depth ih =>
      by_cases same : depth' = depth + 1
      · subst same
        simp [widths]
      · have less : unit * depth' < unit * (depth + 1) := Nat.mul_lt_mul_of_pos_left (by omega) pos
        obtain ⟨length, rest⟩ := ih (by omega)
        rw [widths, List.takeWhile_cons_of_pos (by simpa using less),
          List.dropWhile_cons_of_pos (by simpa using less), List.length_cons, length, rest]
        exact ⟨by omega, rfl⟩

theorem top_regular (unit depth : Nat) : (regular unit depth).top = unit * depth := by
  cases depth <;> rfl

/-- Kinds and lexemes of the markers that a scan puts out for changes. -/
def markers (changes : List Change) : List (Token.Kind × List Char) :=
  changes.flatMap fun
    | .opened _ => [(.indent, [])]
    | .closed _ => [(.dedent, [])]
    | .misaligned _ => []

theorem markers_closed (widths : List Nat) :
    markers (widths.map .closed) = List.replicate widths.length (.dedent, []) := by
  induction widths with
  | nil => rfl
  | cons _ _ ih => exact congrArg _ ih

/-- From line to line the layout stays the regular one. -/
theorem enter_regular (pos : 0 < unit) {depth depth' : Nat} (le : depth' ≤ depth + 1) :
    ((regular unit depth).enter (unit * depth')).2 = regular unit depth' ∧
      markers ((regular unit depth).enter (unit * depth')).1 =
        (if depth < depth' then [(.indent, [])] else List.replicate (depth - depth')
          (.dedent, [])) ∧
      ∀ w, Change.misaligned w ∉ ((regular unit depth).enter (unit * depth')).1 := by
  obtain rises | same | falls : depth' = depth + 1 ∨ depth' = depth ∨ depth' < depth := by omega
  · subst rises
    have wider : (regular unit depth).current < unit * (depth + 1) :=
      Nat.mul_lt_mul_of_pos_left (Nat.lt_succ_self _) pos
    simp only [enter, if_pos wider]
    simp [markers, regular, widths]
  · subst same
    simp [enter, regular, markers]
  · have less : unit * depth' < (regular unit depth).current := Nat.mul_lt_mul_of_pos_left falls pos
    obtain ⟨length, rest⟩ := widths_wider pos (Nat.le_of_lt falls)
    have top : Layout.top ⟨widths unit depth', unit * depth'⟩ = unit * depth' :=
      top_regular unit depth'
    simp only [enter, if_neg (Nat.lt_asymm less), if_pos less]
    simp only [regular, rest, top, if_neg (Nat.lt_asymm falls), ↓reduceIte, List.append_nil]
    refine ⟨trivial, ?_, by simp⟩
    rw [markers_closed, length]

end Layout

namespace Piece

variable (t : Token.Kind × List Char)

theorem ofToken_ne_newline : ofToken t ≠ .newline := by
  obtain ⟨kind, _⟩ := t
  cases kind <;> simp [ofToken]

theorem isGap_ofToken : isGap (ofToken t) = false := by
  obtain ⟨kind, _⟩ := t
  cases kind <;> rfl

theorem token?_ofToken : (ofToken t).token? true = some t := by
  obtain ⟨kind, _⟩ := t
  cases kind <;> rfl

theorem fault?_ofToken : (ofToken t).fault? = none := by
  obtain ⟨kind, _⟩ := t
  cases kind <;> rfl

/-- A space between tokens, or a token. -/
def Spelled (p : Piece) : Prop := p = .blank ' ' ∨ ∃ t, p = .ofToken t

theorem Spelled.ne_newline {p : Piece} (h : p.Spelled) : p ≠ .newline := by
  obtain rfl | ⟨t, rfl⟩ := h
  · simp
  · exact ofToken_ne_newline t

theorem Spelled.fault?_eq_none {p : Piece} (h : p.Spelled) : p.fault? = none := by
  obtain rfl | ⟨t, rfl⟩ := h
  · rfl
  · exact fault?_ofToken t

end Piece

namespace Scan

/-- Kinds and lexemes of the tokens that an event puts out. -/
def signs (e : Event) : List (Token.Kind × List Char) :=
  (e.tokens true).map fun t => (t.kind, t.lexeme.toList)

theorem signs_piece (p : Piece) (loc : Location) :
    signs (.piece p loc) = (p.token? true).toList := by
  cases h : p.token? true <;> simp [signs, Event.tokens, h]

theorem flatMap_signs_layout (changes : List Layout.Change) (loc : Location) :
    (changes.map (Event.layout · loc)).flatMap signs = Layout.markers changes := by
  induction changes with
  | nil => rfl
  | cons change changes ih =>
      rw [List.map_cons, List.flatMap_cons, ih]
      cases change <;> rfl

theorem flatMap_errors_layout {changes : List Layout.Change}
    (aligned : ∀ w, Layout.Change.misaligned w ∉ changes) (loc : Location) :
    (changes.map (Event.layout · loc)).flatMap Event.errors = [] := by
  rw [List.flatMap_eq_nil_iff]
  rintro e he
  obtain ⟨change, hchange, rfl⟩ := List.mem_map.1 he
  cases change with
  | misaligned w => exact absurd hchange (aligned w)
  | _ => rfl

end Scan

namespace CodeLine

variable {unit : Nat}

/-- The pieces of a line up to its newline. -/
def pieces (unit : Nat) (line : CodeLine) : List Piece :=
  List.replicate (unit * line.depth) (.blank ' ') ++
    match line.tokens with
    | [] => []
    | t :: ts => .ofToken t :: ts.flatMap fun t => [.blank ' ', .ofToken t]

theorem isGap_of_mem_replicate {n : Nat} : ∀ c ∈ List.replicate n ' ', Text.isGap c :=
  fun _ hc => List.eq_of_mem_replicate hc ▸ rfl

theorem split_text (unit : Nat) (line : CodeLine) (more : List Char) :
    Piece.split (line.text unit ++ more) = line.pieces unit ++ .newline :: Piece.split more := by
  obtain ⟨t, ts, hts, htext⟩ := line.text_eq unit
  have legible := line.legible
  rw [hts] at legible
  rw [htext, Piece.split_append_of_isGap isGap_of_mem_replicate, legible.split_cons,
    legible.tail.split_spelledBehind, pieces, hts, List.map_replicate]
  simp only [List.append_assoc, List.cons_append]

theorem spelled_of_mem_pieces {line : CodeLine} {p : Piece} (h : p ∈ line.pieces unit) :
    p.Spelled := by
  obtain ⟨t, ts, hts⟩ := List.exists_cons_of_ne_nil line.nonempty
  simp only [pieces, hts, List.mem_append, List.mem_replicate, List.mem_cons, List.mem_flatMap,
    List.not_mem_nil, or_false] at h
  obtain ⟨-, rfl⟩ | rfl | ⟨u, -, rfl | rfl⟩ := h
  · exact .inl rfl
  · exact .inr ⟨t, rfl⟩
  · exact .inl rfl
  · exact .inr ⟨u, rfl⟩

/-- The pieces of a line stand for its tokens. -/
theorem flatMap_token?_pieces (unit : Nat) (line : CodeLine) :
    (line.pieces unit).flatMap (fun p => (p.token? true).toList) = line.tokens := by
  obtain ⟨t, ts, hts⟩ := List.exists_cons_of_ne_nil line.nonempty
  have blank : (Piece.blank ' ').token? true = none := rfl
  simp [pieces, hts, List.flatMap_replicate, List.flatMap_assoc, blank, Piece.token?_ofToken]

theorem width_replicate {n : Nat} (fits : n < Word.size) (tabWidth : Nat) :
    Layout.width tabWidth (List.replicate n ' ') = n := by
  have measured : Layout.measure tabWidth (List.replicate n ' ') = n := by
    simp [Layout.measure, List.count_replicate]
  rw [Layout.width_eq_measure isGap_of_mem_replicate (by rwa [measured]), measured]

theorem lineWidth?_text (line : CodeLine) (fits : unit * line.depth < Word.size) (tabWidth : Nat)
    (more : List Char) :
    Layout.lineWidth? tabWidth (Piece.split (line.text unit ++ more)) =
      some (unit * line.depth) := by
  have hindent : Layout.indentation (Piece.split (line.text unit ++ more)) =
      List.replicate (unit * line.depth) ' ' := by
    obtain ⟨t, ts, hts, htext⟩ := line.text_eq unit
    obtain ⟨c, cs, hspelling, notGap⟩ :=
      (line.legible.plain t (by simp [hts])).exists_spelling_eq_cons
    rw [Piece.split_takeWhile_isGap, htext, List.takeWhile_append_of_pos isGap_of_mem_replicate,
      hspelling, List.cons_append, List.takeWhile_cons_of_neg (by simp [notGap]), List.append_nil]
  obtain ⟨⟨kind, lexeme⟩, ts, hts⟩ := List.exists_cons_of_ne_nil line.nonempty
  obtain ⟨ps, hdrop⟩ : ∃ ps, (Piece.split (line.text unit ++ more)).dropWhile Piece.isGap =
      .ofToken (kind, lexeme) :: ps := by
    rw [split_text, pieces, hts, List.append_assoc,
      List.dropWhile_append_of_pos (fun p hp => List.eq_of_mem_replicate hp ▸ rfl),
      List.cons_append,
      List.dropWhile_cons_of_neg (by simp [Piece.isGap_ofToken])]
    exact ⟨_, rfl⟩
  have notComment := line.noCommentFirst (kind, lexeme) (by simp [hts])
  unfold Layout.lineWidth? Layout.countedWidth?
  rw [hdrop, hindent, width_replicate fits]
  cases kind with
  | comment => contradiction
  | _ => rfl

/-- A line that is one block deeper at most opens that block, and every other line closes the blocks
that it is not inside. -/
theorem eventsFrom_regular (pos : 0 < unit) {depth depth' : Nat} (le : depth' ≤ depth + 1)
    {o : ScanOptions} {ps : List Piece}
    (width : Layout.lineWidth? o.tabWidth ps = some (unit * depth')) (loc : Location) :
    (Scan.eventsFrom o (.regular unit depth) loc ps).flatMap Scan.signs =
        (if depth < depth' then [(.indent, [])] else List.replicate (depth - depth')
          (.dedent, [])) ++
          (Scan.pieceEvents o (.regular unit depth') loc ps).flatMap Scan.signs ∧
      (Scan.eventsFrom o (.regular unit depth) loc ps).flatMap Event.errors =
        (Scan.pieceEvents o (.regular unit depth') loc ps).flatMap Event.errors := by
  obtain ⟨entered, markers, aligned⟩ := Layout.enter_regular pos le
  simp only [Scan.eventsFrom, Scan.lineEvents, Layout.enterLine, width, entered,
    List.flatMap_append, Scan.flatMap_signs_layout, markers, Scan.flatMap_errors_layout aligned,
    List.nil_append,
    and_self]

/-- Behind a line inside `depth` blocks, the lines that follow are scanned as they were written. -/
theorem scan_lines (pos : 0 < unit) {lines : List CodeLine} {depth : Nat}
    (rises : (depth :: lines.map CodeLine.depth).IsChain fun d e => e ≤ d + 1)
    (fits : ∀ line ∈ lines, unit * line.depth < Word.size) (loc : Location) :
    let events := Scan.eventsFrom {} (.regular unit depth) loc
      (Piece.split (lines.flatMap (text unit)))
    events.flatMap Scan.signs = scanned depth lines ∧ events.flatMap Event.errors = [] := by
  induction lines generalizing depth loc with
  | nil =>
      have width : Layout.lineWidth? 8 (Piece.split []) = some (unit * 0) := by
        rw [Piece.split_nil]
        rfl
      obtain ⟨signs, errors⟩ :=
        @eventsFrom_regular _ pos depth 0 (Nat.zero_le _) {} _ width loc
      rw [Piece.split_nil] at signs errors
      simp only [List.flatMap_nil, Piece.split_nil, signs, errors]
      exact ⟨rfl, rfl⟩
  | cons line lines ih =>
      have width := line.lineWidth?_text (fits line (by simp)) 8 (lines.flatMap (text unit))
      obtain ⟨le, rises⟩ := List.isChain_cons_cons.1 rises
      obtain ⟨signs, errors⟩ := @eventsFrom_regular _ pos depth line.depth le {} _ width loc
      have sameLine : .newline ∉ line.pieces unit :=
        fun h => (spelled_of_mem_pieces h).ne_newline rfl
      have faultless : ∀ p ∈ line.pieces unit, ∀ loc, Event.errors (.piece p loc) = [] := by
        intro p hp loc
        rw [Event.errors, (spelled_of_mem_pieces hp).fault?_eq_none]
      rw [split_text] at signs errors
      rw [Scan.flatMap_pieceEvents sameLine fun p _ loc => Scan.signs_piece p loc,
        flatMap_token?_pieces, Scan.pieceEvents_newline, List.flatMap_cons, Scan.signs_piece]
          at signs
      rw [Scan.flatMap_pieceEvents sameLine faultless, Scan.pieceEvents_newline,
        List.flatMap_cons] at errors
      obtain ⟨signs', errors'⟩ := ih rises (fun line hline => fits line (by simp [hline])) _
      rw [signs'] at signs
      rw [errors'] at errors
      dsimp only
      rw [List.flatMap_cons, split_text, signs, errors, scanned, List.append_assoc]
      exact ⟨rfl, by simp [Event.errors, Piece.fault?]⟩

end CodeLine

/-- Canonical layout is undone by scanning: of a text whose lines begin outside all blocks and go at
most one block deeper at a time, the scan puts out the tokens of each line and its newline, the
markers of the blocks that begin and end between the lines, and nothing else. Widths are words, and
a text with more spaces in front of a line fits no memory. -/
theorem scan_canonical {unit : Nat} (pos : 0 < unit) {lines : List CodeLine}
    (outside : ∀ line ∈ lines.head?, line.depth = 0)
    (rises : lines.IsChain fun line next => next.depth ≤ line.depth + 1)
    (fits : ∀ line ∈ lines, unit * line.depth < Word.size) :
    let scan := Scan.ofString (String.ofList (lines.flatMap (CodeLine.text unit))) {}
    scan.tokens.map (fun t => (t.kind, t.lexeme.toList)) = CodeLine.scanned 0 lines ∧
      scan.errors = [] := by
  intro scan
  have rises' : (0 :: lines.map CodeLine.depth).IsChain fun d e => e ≤ d + 1 := by
    rw [List.isChain_cons, List.isChain_map]
    refine ⟨fun d hd => ?_, rises⟩
    rw [List.head?_map] at hd
    obtain ⟨line, hline, rfl⟩ := Option.map_eq_some_iff.1 hd
    exact Nat.le_succ_of_le (Nat.le_of_eq (outside line hline))
  obtain ⟨signs, errors⟩ := CodeLine.scan_lines pos rises' fits .start
  have events : scan.events = Scan.eventsFrom {} (.regular unit 0) .start
      (Piece.split (lines.flatMap (CodeLine.text unit))) := by
    have start : Layout.regular unit 0 = {} := rfl
    rw [start, ← @String.toList_ofList (lines.flatMap (CodeLine.text unit))]
    rfl
  rw [Scan.tokens, Scan.errors, events, List.map_flatMap]
  exact ⟨signs, errors⟩

/-- Three lines, of which each next one is inside one more block. Neither `si` nor `de` is followed
by the words that it would make up a longer keyword with. -/
def nestedLines : List CodeLine :=
  [{ depth := 0
     tokens := [(.keyword .si, "si".toList), (.symbol .openParen, ['(']),
       (.identifier, "no".toList),
      (.symbol .closeParen, [')']), (.comment, " nota".toList)]
     nonempty := List.cons_ne_nil _ _
     legible :=
      { plain := by
          simp only [List.forall_mem_cons]
          exact ⟨.keyword .si, .symbol .openParen,
            .identifier (by decide) (List.all_eq_true.1 rfl) (by decide), .symbol .closeParen,
            .comment (by decide), by simp⟩
        commentLast := by decide
        noSiNo := by decide
        noDeLoContrario := by decide }
     noCommentFirst := by decide },
   { depth := 1
     tokens := [(.identifier, "de".toList), (.identifier, "lo".toList), (.text, "a\nb".toList)]
     nonempty := List.cons_ne_nil _ _
     legible :=
      { plain := by
          simp only [List.forall_mem_cons]
          exact ⟨.identifier (by decide) (List.all_eq_true.1 rfl) (by decide),
            .identifier (by decide) (List.all_eq_true.1 rfl) (by decide), .text (by decide), by
              simp⟩
        commentLast := by decide
        noSiNo := by decide
        noDeLoContrario := by decide }
     noCommentFirst := by decide },
   { depth := 2
     tokens := [(.keyword .siNo, "si no".toList), (.decimal, "0.50".toList)]
     nonempty := List.cons_ne_nil _ _
     legible :=
      { plain := by
          simp only [List.forall_mem_cons]
          exact ⟨.keyword .siNo,
            @Plain.decimal ['0'] ['5', '0'] (by decide) (List.all_eq_true.1 rfl)
            (by decide) (List.all_eq_true.1 rfl), by simp⟩
        commentLast := by decide
        noSiNo := by decide
        noDeLoContrario := by decide }
     noCommentFirst := by decide }]

theorem scan_nestedLines :
    let scan := Scan.ofString "si ( no ) ~ nota\n  de lo \"a\nb\"\n    si no 0.50\n" {}
    scan.tokens.map (fun t => (t.kind, t.lexeme.toList)) =
        [(.keyword .si, "si".toList), (.symbol .openParen, ['(']), (.identifier, "no".toList),
         (.symbol .closeParen, [')']), (.comment, " nota".toList), (.newline, ['\n']),
         (.indent, []),
         (.identifier, "de".toList), (.identifier, "lo".toList), (.text, "a\nb".toList),
         (.newline, ['\n']), (.indent, []), (.keyword .siNo, "si no".toList),
         (.decimal, "0.50".toList), (.newline, ['\n']), (.dedent, []), (.dedent, []), (.eof, [])] ∧
      scan.errors = [] :=
  @scan_canonical 2 (by decide) nestedLines (by decide) (by decide) (by decide)

end PasoFrontEnd
