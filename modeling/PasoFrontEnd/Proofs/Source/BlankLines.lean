import PasoFrontEnd.Proofs.Grammar.Editing
import PasoFrontEnd.Proofs.Grammar.Indentation
import PasoFrontEnd.Proofs.Scan.Places

/-!
Blank lines, and lines with nothing but a comment, carry no structure. Put in between two lines,
such a line adds its own tokens and moves what stands below it one line down; nothing else changes,
in the scan or in the parse.
-/

namespace PasoFrontEnd

/-- A line without code: spaces and tabs, maybe a comment, and a newline, maybe with a return. -/
structure EmptyLine where
  gap : List Char
  comment : Option (List Char)
  returned : Bool
  isGap : ∀ c ∈ gap, Text.isGap c
  sameLine : ∀ text ∈ comment, '\n' ∉ text

namespace EmptyLine

variable (line : EmptyLine)

def ending : List Char := if line.returned then ['\r'] else []

/-- What stands between the indentation and the newline. -/
def code : List Char :=
  match line.comment with
  | some text => '~' :: (text ++ line.ending)
  | none => line.ending

def text : List Char := line.gap ++ (line.code ++ ['\n'])

/-- The tokens of the line in the given row of a text: its comment, unless comments are left out,
and its newline. -/
def tokens (keepComments : Bool) (row : Nat) : List Token :=
  (match line.comment with
    | some text =>
      if keepComments then
        [⟨.comment, String.ofList (text ++ line.ending), ⟨row, 1 + line.gap.length⟩⟩]
      else []
    | none => []) ++
    [⟨.newline, "\n", ⟨row, line.text.length⟩⟩]

/-- The pieces between the indentation and the newline. -/
def pieces : List Piece :=
  match line.comment with
  | some text => [.comment (text ++ line.ending)]
  | none => line.ending.map .blank

theorem newline_not_mem_ending : '\n' ∉ line.ending := by
  unfold ending
  split <;> decide

theorem newline_not_mem_code : '\n' ∉ line.code := by
  unfold code
  split
  case h_1 text h =>
    have sameLine := line.sameLine text h
    have ending := line.newline_not_mem_ending
    simp [sameLine, ending]
  case h_2 => exact line.newline_not_mem_ending

theorem split_code (after : List Char) :
    Piece.split (line.code ++ '\n' :: after) = line.pieces ++ .newline :: Piece.split after := by
  have ending := line.newline_not_mem_ending
  unfold code pieces
  split
  case h_1 text h =>
    have sameLine : '\n' ∉ text ++ line.ending := by
      simp [line.sameLine text h, ending]
    rw [List.cons_append, Piece.split_cons, Piece.read_comment sameLine, Piece.split_newline]
    rfl
  case h_2 =>
    have blanks : ∀ c ∈ line.ending, Text.isInnerBlank c := by
      unfold EmptyLine.ending
      split
      · simpa using (by decide : Text.isInnerBlank '\r' = true)
      · simp
    rw [Piece.split_append_of_isInnerBlank blanks, Piece.split_newline]

theorem takesPart_code : Text.takesPart (line.code ++ ['\n']) = false := by
  unfold code ending
  cases line.comment with
  | some text => rfl
  | none => cases line.returned <;> rfl

theorem lineWidth?_text (tabWidth : Nat) (after : List Char) :
    Layout.lineWidth? tabWidth (Piece.split (line.text ++ after)) = none := by
  have behind : Text.Behind (line.code ++ ['\n']) := by
    unfold code ending
    cases line.comment with
    | some text => exact .comment _
    | none =>
        cases line.returned with
        | true => exact .returned _
        | false => exact .newline _
  rw [text, List.append_assoc, Layout.lineWidth?_line line.isGap behind (by simp), takesPart_code]
  rfl

end EmptyLine

namespace Event

variable {e : Event} {keep : Bool}

theorem tokens_relocate {f : Location → Location} {g : Edit} (text : g.text = id)
    (place : g.place e.location = f e.location) :
    (e.relocate f).tokens keep = (e.tokens keep).map g.token := by
  cases e with
  | piece p loc =>
      replace place : g.place loc = f loc := place
      cases h : p.token? keep <;> simp [relocate, tokens, Edit.token, h, text, place]
  | layout change loc =>
      replace place : g.place loc = f loc := place
      cases change <;> simp [relocate, tokens, Edit.token, place]
  | ended depth loc =>
      replace place : g.place loc = f loc := place
      simp [relocate, tokens, Edit.token, place]

theorem errors_relocate {f : Location → Location} {g : Edit}
    (place : g.place e.location = f e.location) :
    (e.relocate f).errors = e.errors.map g.lexError := by
  cases e with
  | piece p loc =>
      replace place : g.place loc = f loc := place
      cases h : p.fault? <;> simp [relocate, errors, Edit.lexError, h, place]
  | layout change loc =>
      replace place : g.place loc = f loc := place
      cases change <;> simp [relocate, errors, Edit.lexError, place]
  | ended depth loc =>
      replace place : g.place loc = f loc := place
      simp only [relocate, errors]
      split <;> simp [Edit.lexError, place]

/-- Newline tokens come from newlines. -/
theorem exists_piece_of_newline {t : Token} (h : t ∈ e.tokens keep) (kind : t.kind = .newline) :
    ∃ p lexeme, e = .piece p t.location ∧ p.token? keep = some (.newline, lexeme) := by
  cases e with
  | piece p loc =>
      simp only [tokens] at h
      split at h
      case h_1 found =>
        obtain rfl := List.mem_singleton.1 h
        obtain rfl : _ = Token.Kind.newline := kind
        exact ⟨p, _, rfl, found⟩
      case h_2 => contradiction
  | layout change loc =>
      cases change with
      | misaligned _ => contradiction
      | opened _ | closed _ =>
          obtain rfl := List.mem_singleton.1 h
          contradiction
  | ended depth loc =>
      obtain h | h := List.mem_append.1 h
      · obtain rfl := List.eq_of_mem_replicate h
        contradiction
      · obtain rfl := List.mem_singleton.1 h
        contradiction

end Event

theorem Piece.Stands.eq_newline {p : Piece} {rest lexeme : List Char} {keep : Bool}
    (h : p.Stands rest) (token : p.token? keep = some (.newline, lexeme)) : p = .newline := by
  cases h with
  | newline => rfl
  | blank _ _ | rejected _ => contradiction
  | comment _ _ => cases keep <;> simp [token?] at token
  | closed _ | unclosed _ => simp [token?] at token
  | lexeme written _ =>
      cases token
      contradiction

/-- Everything from the given row on is one row further down. -/
def Edit.below (row : Nat) : Edit where
  place loc := if row ≤ loc.line then ⟨loc.line + 1, loc.column⟩ else loc

namespace Edit

variable {row : Nat}

theorem below_place_of_lt {loc : Location} (h : loc.line < row) : (below row).place loc = loc :=
  if_neg (Nat.not_le_of_lt h)

theorem below_token_of_lt {t : Token} (h : t.location.line < row) : (below row).token t = t := by
  rw [token, below_place_of_lt h]
  simp [below]

theorem below_lexError_of_lt {e : LexError} (h : e.location.line < row) :
    (below row).lexError e = e := by
  rw [lexError, below_place_of_lt h]

end Edit

namespace Scan

variable {o : ScanOptions} {l : Layout} (line : EmptyLine)

/-- An empty line puts out its tokens and leaves the layout as it is. -/
theorem eventsFrom_emptyLine (row : Nat) (after : List Char) :
    (eventsFrom o l ⟨row, 1⟩ (Piece.split (line.text ++ after))).flatMap
        (Event.tokens o.keepComments) =
      line.tokens o.keepComments row ++
        (eventsFrom o l ⟨row + 1, 1⟩ (Piece.split after)).flatMap (Event.tokens o.keepComments) ∧
    (eventsFrom o l ⟨row, 1⟩ (Piece.split (line.text ++ after))).flatMap Event.errors =
      (eventsFrom o l ⟨row + 1, 1⟩ (Piece.split after)).flatMap Event.errors := by
  have width := line.lineWidth?_text o.tabWidth after
  have entered : l.enterLine o.tabWidth (Piece.split (line.text ++ after)) = ([], l) := by
    rw [Layout.enterLine, width]
  have behindGap := Location.advance_of_sameLine (Text.newline_not_mem_gap line.isGap) ⟨row, 1⟩
  rw [eventsFrom, lineEvents, entered]
  simp only [List.map_nil, List.nil_append]
  rw [EmptyLine.text, List.append_assoc, Piece.split_append_of_isGap line.isGap, List.append_assoc,
    List.singleton_append, line.split_code, flatMap_pieceEvents_gap fun _ _ => rfl,
    flatMap_pieceEvents_gap fun _ _ => rfl, behindGap]
  have behindCode :=
    Location.advance_of_sameLine line.newline_not_mem_code ⟨row, 1 + line.gap.length⟩
  have column : 1 + line.gap.length + line.code.length = line.text.length := by
    simp only [EmptyLine.text, List.length_append, List.length_singleton]
    omega
  rw [column] at behindCode
  unfold EmptyLine.pieces EmptyLine.tokens
  unfold EmptyLine.code at behindCode
  cases hcomment : line.comment with
  | some text =>
      simp only [hcomment] at behindCode
      have chars : (Piece.comment (text ++ line.ending)).chars = '~' :: (text ++ line.ending) := rfl
      rw [List.singleton_append, pieceEvents_cons (by simp), chars, behindCode, pieceEvents_newline]
      cases o.keepComments <;> exact ⟨rfl, rfl⟩
  | none =>
      simp only [hcomment] at behindCode
      rw [flatMap_pieceEvents_gap fun _ _ => rfl, flatMap_pieceEvents_gap fun _ _ => rfl,
        behindCode, pieceEvents_newline]
      exact ⟨rfl, rfl⟩

/-- Behind a newline the events are the same in every row but for their places. -/
theorem eventsFrom_succ (row : Nat) (ps : List Piece) :
    (eventsFrom o l ⟨row + 1, 1⟩ ps).flatMap (Event.tokens o.keepComments) =
        ((eventsFrom o l ⟨row, 1⟩ ps).flatMap (Event.tokens o.keepComments)).map
          (Edit.below row).token ∧
      (eventsFrom o l ⟨row + 1, 1⟩ ps).flatMap Event.errors =
        ((eventsFrom o l ⟨row, 1⟩ ps).flatMap Event.errors).map (Edit.below row).lexError := by
  let down (loc : Location) : Location := ⟨loc.line + 1, loc.column⟩
  have moved := @eventsFrom_relocate down (fun loc c => by unfold Location.next; split <;> rfl) o l
    ⟨row, 1⟩ ps
  have place : ∀ e ∈ eventsFrom o l ⟨row, 1⟩ ps,
      (Edit.below row).place e.location = down e.location :=
    fun e he => if_pos (line_le_of_mem_eventsFrom he)
  change eventsFrom o l ⟨row + 1, 1⟩ ps = _ at moved
  rw [moved, List.flatMap_map, List.flatMap_map, List.map_flatMap, List.map_flatMap]
  exact ⟨List.flatMap_congr fun e he => Event.tokens_relocate rfl (place e he),
    List.flatMap_congr fun e he => Event.errors_relocate (place e he)⟩

/-- In front of a newline token the pieces of a text do not depend on what follows. -/
theorem exists_split_append_newline {source : String} {front after : List Char} {o : ScanOptions}
    (whole : source.toList = front ++ '\n' :: after)
    (newline : ⟨.newline, "\n", .behind front⟩ ∈ (ofString source o).tokens) :
    ∃ ps, ps.flatMap Piece.chars = front ∧ ∀ rest,
      Piece.split (front ++ '\n' :: rest) = ps ++ .newline :: Piece.split rest := by
  obtain ⟨e, he, ht⟩ := List.mem_flatMap.1 newline
  obtain ⟨p, lexeme, rfl, token⟩ := Event.exists_piece_of_newline ht rfl
  obtain ⟨ps, qs, hsplit, place⟩ := exists_of_mem_eventsFrom he
  obtain ⟨_, stands⟩ :=
    Piece.exists_stands_of_mem_split (hsplit ▸ List.mem_append_right _ List.mem_cons_self)
  obtain rfl := stands.eq_newline token
  have chars := Piece.flatMap_chars_split source.toList
  rw [hsplit, List.flatMap_append, List.flatMap_cons] at chars
  obtain rfl : front = ps.flatMap Piece.chars :=
    Location.eq_of_behind ⟨_, whole.symm⟩ ⟨_, chars⟩
      (place.trans (Location.behind_append [] _).symm)
  have rest : after = qs.flatMap Piece.chars :=
    (List.cons.inj (List.append_cancel_left (whole.symm.trans chars.symm))).2
  have pieces : Piece.split after = qs := by
    rw [rest]
    exact @Piece.split_flatMap_chars (ps ++ [.newline]) qs source.toList (by simp [hsplit])
  refine ⟨ps, rfl, @Piece.split_append_newline ps after ?_⟩
  rw [← whole, hsplit, pieces]

/-- What a scan does in front of the beginning of a row does not depend on the rows from there
on. -/
theorem exists_events_before {before after : List Char}
    (beginning : before = [] ∨ ∃ front, before = front ++ ['\n'] ∧
      ⟨.newline, "\n", .behind front⟩ ∈ (ofString (String.ofList (before ++ after)) o).tokens) :
    ∃ events l, (∀ rest, eventsFrom o {} .start (Piece.split (before ++ rest)) =
        events ++ eventsFrom o l ⟨(Location.behind before).line, 1⟩ (Piece.split rest)) ∧
      (∀ e ∈ events, e.location.line < (Location.behind before).line) ∧
      ∀ e ∈ events.getLast?, ∃ loc, e = .piece .newline loc := by
  obtain rfl | ⟨front, rfl, newline⟩ := beginning
  · refine ⟨[], {}, fun rest => ?_, by simp, by simp⟩
    rfl
  · have whole : (String.ofList (front ++ ['\n'] ++ after)).toList = front ++ '\n' :: after := by
      simp
    obtain ⟨ps, rfl, pieces⟩ := exists_split_append_newline whole newline
    obtain ⟨events, l, append, above, loc, last⟩ := exists_heads_eventsFrom o {} .start ps
    have start : Location.start.advance (ps.flatMap Piece.chars ++ ['\n']) =
        .behind (ps.flatMap Piece.chars ++ ['\n']) := (Location.behind_append [] _).symm
    rw [start] at append above
    refine ⟨events, l, fun rest => ?_, above, ?_⟩
    · have entered := append (Piece.split rest)
      rw [← pieces, Location.behind_append_singleton] at entered
      rw [List.append_assoc, Location.behind_append_singleton]
      exact entered
    · rintro e he
      rw [last] at he
      exact ⟨loc, (Option.some.inj he).symm⟩

end Scan

namespace Grammar

/-- The tokens of a line without code, behind a newline or at the beginning, change no outcome. -/
theorem parse_insert_emptyLine (line : EmptyLine) (keep : Bool) {row : Nat}
    {front back : List Token} (ended : Ended ((front ++ back).filter (·.kind ≠ .comment)))
    (last : ∀ t ∈ front.getLast?, t.kind = .newline) (above : ∀ t ∈ front, t.location.line < row) :
    parse (front ++ (line.tokens keep row ++ back.map (Edit.below row).token)) =
      (Edit.below row).outcome (parse (front ++ back)) := by
  have unmoved : front.map (Edit.below row).token = front := by
    have same := List.map_congr_left fun t ht => Edit.below_token_of_lt (above t ht)
    rwa [List.map_id'] at same
  have newline : (line.tokens keep row).filter (·.kind ≠ .comment) =
      [⟨.newline, "\n", ⟨row, line.text.length⟩⟩] := by
    unfold EmptyLine.tokens
    cases line.comment with
    | some text => cases keep <;> rfl
    | none => rfl
  have last' : ∀ t ∈ (front.filter (·.kind ≠ .comment)).getLast?, t.kind = .newline := by
    obtain rfl | ⟨front, t, rfl⟩ := front.eq_nil_or_concat'
    · simp
    · have kind : t.kind = .newline := last t List.getLast?_concat
      rw [List.filter_append, List.filter_cons_of_pos (by simp [kind]), List.filter_nil]
      simpa using kind
  rw [List.filter_append] at ended
  have inserted := @parse_blankLine (Edit.below row) _ _ ⟨.newline, "\n", ⟨row, line.text.length⟩⟩
    ended last' rfl
  rw [← parse_withoutComments (front ++ back), List.filter_append, ← inserted,
    ← parse_withoutComments, List.filter_append, List.filter_append, newline, List.singleton_append]
  congr
  · conv_lhs => rw [← unmoved, List.filter_map]
    rfl
  · rw [List.filter_map]
    rfl

end Grammar

/-- A line without code can be put in at the beginning of a text or behind any newline that is a
token. The scan puts out its tokens in front of all that the next line puts out, what stands below
it moves one row down, and the outcome of the parse stays the same but for these places. -/
theorem scan_insert_emptyLine (line : EmptyLine) {before after : List Char} {o : ScanOptions}
    (beginning : before = [] ∨ ∃ front, before = front ++ ['\n'] ∧
      ⟨.newline, "\n", .behind front⟩ ∈ (Scan.ofString (String.ofList (before ++ after)) o).tokens)
        :
    let scan := Scan.ofString (String.ofList (before ++ after)) o
    let scan' := Scan.ofString (String.ofList (before ++ line.text ++ after)) o
    let row := (Location.behind before).line
    (∃ front back, scan.tokens = front ++ back ∧
      (∀ t ∈ front, t.location.line < row) ∧ (∀ t ∈ back, row ≤ t.location.line) ∧
      scan'.tokens = front ++ (line.tokens o.keepComments row ++ back.map (Edit.below row).token)) ∧
    scan'.errors = scan.errors.map (Edit.below row).lexError ∧
    parse scan'.tokens = (Edit.below row).outcome (parse scan.tokens) := by
  intro scan scan' row
  obtain ⟨events, l, append, above, last⟩ := Scan.exists_events_before beginning
  obtain ⟨lineTokens, lineErrors⟩ := @Scan.eventsFrom_emptyLine o l line row after
  obtain ⟨movedTokens, movedErrors⟩ := @Scan.eventsFrom_succ o l row (Piece.split after)
  let tokensOf (events : List Event) := events.flatMap (Event.tokens o.keepComments)
  let back := Scan.eventsFrom o l ⟨row, 1⟩ (Piece.split after)
  have tokens : scan.tokens = tokensOf events ++ tokensOf back := by
    rw [Scan.tokens_ofString, String.toList_ofList, append, List.flatMap_append]
  have tokens' : scan'.tokens = tokensOf events ++
      (line.tokens o.keepComments row ++ (tokensOf back).map (Edit.below row).token) := by
    rw [Scan.tokens_ofString, String.toList_ofList, List.append_assoc, append, List.flatMap_append,
      lineTokens, movedTokens]
  have frontAbove : ∀ t ∈ tokensOf events, t.location.line < row :=
    Event.forall_mem_tokens (P := (·.line < row)) above o.keepComments
  have backBelow : ∀ t ∈ tokensOf back, row ≤ t.location.line :=
    Event.forall_mem_tokens (P := (row ≤ ·.line))
      (fun e he => @Scan.line_le_of_mem_eventsFrom o l ⟨row, 1⟩ _ e he) o.keepComments
  have lastToken : ∀ t ∈ (tokensOf events).getLast?, t.kind = .newline := by
    obtain rfl | ⟨events, e, rfl⟩ := events.eq_nil_or_concat'
    · simp [tokensOf]
    · obtain ⟨loc, rfl⟩ := last e List.getLast?_concat
      intro t ht
      have htokens : tokensOf (events ++ [.piece .newline loc]) =
          tokensOf events ++ [⟨.newline, "\n", loc⟩] := List.flatMap_append
      rw [htokens, List.getLast?_concat] at ht
      rw [← Option.some.inj ht]
  refine ⟨⟨_, _, tokens, frontAbove, backBelow, tokens'⟩, ?_, ?_⟩
  · have unmoved : (events.flatMap Event.errors).map (Edit.below row).lexError =
        events.flatMap Event.errors := by
      have same := List.map_congr_left fun error herror =>
        Edit.below_lexError_of_lt (Event.forall_mem_errors (P := (·.line < row)) above error herror)
      rwa [List.map_id'] at same
    rw [Scan.errors_ofString, Scan.errors_ofString, String.toList_ofList, String.toList_ofList,
      List.append_assoc, append, append, List.flatMap_append, List.flatMap_append, lineErrors,
      movedErrors, List.map_append, unmoved]
  · rw [tokens', tokens]
    exact Grammar.parse_insert_emptyLine line _
      (tokens ▸ Grammar.ended_ofString _ o) lastToken frontAbove

/-- A line with a comment, deeper than the lines around it, whose newline has a return. -/
def note : EmptyLine where
  gap := ['\t', ' ', '\t']
  comment := some [' ', 'n', 'o', 't', 'a']
  returned := true
  isGap := List.all_eq_true.1 rfl
  sameLine := by simp

theorem scan_insert_note :
    let before := "haz\n  a = \"b\nc\"\n".toList
    let after := "mientras (a)\n".toList
    let scan := Scan.ofString (String.ofList (before ++ after)) {}
    let scan' := Scan.ofString (String.ofList (before ++ note.text ++ after)) {}
    ⟨.newline, "\n", ⟨3, 3⟩⟩ ∈ scan.tokens ∧
    (∃ front back, scan.tokens = front ++ back ∧ (∀ t ∈ front, t.location.line < 4) ∧
      (∀ t ∈ back, 4 ≤ t.location.line) ∧
      scan'.tokens = front ++ (⟨.comment, " nota\r", ⟨4, 4⟩⟩ :: ⟨.newline, "\n", ⟨4, 11⟩⟩ ::
        back.map (Edit.below 4).token)) ∧
    scan'.errors = scan.errors.map (Edit.below 4).lexError ∧
    parse scan'.tokens = (Edit.below 4).outcome (parse scan.tokens) := by
  intro before after scan scan'
  have newline : ⟨.newline, "\n", ⟨3, 3⟩⟩ ∈ scan.tokens := by decide +kernel
  exact ⟨newline, @scan_insert_emptyLine note before after {}
    (.inr ⟨"haz\n  a = \"b\nc\"".toList, by decide +kernel, newline⟩)⟩

end PasoFrontEnd
