import PasoFrontEnd.Proofs.Grammar.Editing
import PasoFrontEnd.Proofs.Grammar.Ending
import PasoFrontEnd.Proofs.Grammar.Indentation
import PasoFrontEnd.Proofs.Scan.Modes
import PasoFrontEnd.Proofs.Scan.Nesting
import PasoFrontEnd.Proofs.Scan.Places

/-!
A missing final newline changes no program. Blocks that are open at the end of a text are closed by
the end of the input, with an error, or by the empty line behind a final newline, without one; a
last line without code closes them in front of itself. In each case the grammar takes the same from
the tokens.
-/

namespace PasoFrontEnd

namespace Piece

variable {p : Piece} {rest : List Char}

/-- A newline behind a text is a piece of its own, unless it goes on with an open string literal. -/
theorem split_concat_newline (cs : List Char) :
    split (cs ++ ['\n']) = split cs ++ [.newline] ∨
      ∃ front body, split cs = front ++ [.quoted body false] ∧
        split (cs ++ ['\n']) = front ++ [.quoted (body ++ ['\n']) false] := by
  induction cs using text_induction with
  | nil => exact .inl (by rw [List.nil_append, split_newline, split_nil]; rfl)
  | @piece p rest stands hsplit ih =>
      by_cases unclosed : ∃ body, p = .quoted body false
      · obtain ⟨body, rfl⟩ := unclosed
        cases stands with
        | unclosed noQuote =>
            have noQuote' : '"' ∉ body ++ ['\n'] := by simpa using noQuote
            refine .inr ⟨[], body, by rw [hsplit, split_nil]; rfl, ?_⟩
            have whole : chars (.quoted body false) ++ [] ++ ['\n'] = '"' :: (body ++ ['\n']) := by
              simp [chars]
            rw [whole, split_cons, read_openText noQuote', split_nil]
            rfl
      · have stands' : p.Stands (rest ++ ['\n']) := by
          cases stands with
          | newline => exact .newline
          | blank isBlank sameLine => exact .blank isBlank sameLine
          | closed noQuote => exact .closed noQuote
          | unclosed _ => exact absurd ⟨_, rfl⟩ unclosed
          | lexeme written nonempty => exact .lexeme written nonempty
          | rejected sameLine => exact .rejected sameLine
          | comment sameLine ends =>
              obtain rfl | ⟨more, rfl⟩ := ends
              · exact .comment sameLine (.inr ⟨[], rfl⟩)
              · exact .comment sameLine (.inr ⟨more ++ ['\n'], rfl⟩)
        have same : Text.reach rest = Text.reach (rest ++ ['\n']) :=
          (Text.reach_append (by simp [Text.Bounded, Text.isBound])).symm
        have whole := split_congr hsplit stands' same
        rw [List.append_assoc, hsplit, whole]
        obtain newline | ⟨front, body, last, longer⟩ := ih rest (Nat.le_refl _)
        · exact .inl (by rw [newline]; rfl)
        · exact .inr ⟨p :: front, body, by rw [last]; rfl, by rw [longer]; rfl⟩

/-- Spaces, tabs and comments, which are all that a line without code consists of. -/
def Codeless (ps : List Piece) : Prop := ∀ p ∈ ps, p.isGap ∨ p.isComment

theorem Codeless.sameLine {ps : List Piece} (h : Codeless ps) : .newline ∉ ps :=
  fun newline => by simpa [isGap, isComment] using h _ newline

end Piece

namespace Layout

/-- The blocks that are open are indented, and a line that is not indented leaves none open. -/
structure Rooted (l : Layout) : Prop where
  positive : ∀ w ∈ l.levels, 0 < w
  ground : l.current = 0 → l.levels = []

variable {l : Layout}

theorem dropWhile_positive {levels : List Nat} (positive : ∀ w ∈ levels, 0 < w) :
    levels.dropWhile (0 < ·) = [] := by
  simpa using positive

theorem Rooted.enter (h : Rooted l) (width : Nat) : (l.enter width).2.Rooted := by
  unfold Layout.enter
  split
  case isTrue wider =>
    refine ⟨?_, fun ground => by simp only at ground; omega⟩
    rw [List.forall_mem_cons]
    exact ⟨by omega, h.positive⟩
  case isFalse =>
    split
    case isTrue narrower =>
      refine ⟨fun w hw => h.positive w ((List.dropWhile_sublist _).subset hw), ?_⟩
      rintro rfl
      exact dropWhile_positive h.positive
    case isFalse => exact h

theorem Rooted.enterLine (h : Rooted l) (tabWidth : Nat) (line : List Piece) :
    (l.enterLine tabWidth line).2.Rooted := by
  unfold Layout.enterLine
  split
  · exact h
  · exact h.enter _

/-- A line that is not indented ends all blocks, and is aligned with none. -/
theorem Rooted.enter_zero (h : Rooted l) : l.enter 0 = (l.levels.map .closed, {}) := by
  have all := List.takeWhile_append_dropWhile (p := (0 < ·)) (l := l.levels)
  rw [dropWhile_positive h.positive, List.append_nil] at all
  unfold Layout.enter
  rw [if_neg (Nat.not_lt_zero _), dropWhile_positive h.positive, all]
  split
  · simp [top]
  · have ground : l.current = 0 := by omega
    obtain ⟨levels, current⟩ := l
    obtain rfl := h.ground ground
    obtain rfl : current = 0 := ground
    rfl

/-- A newline behind the last line changes the width of the line only if it has no code. -/
theorem lineWidth?_concat_newline (tabWidth : Nat) {ps : List Piece} (noReturn : .blank '\r' ∉ ps) :
    lineWidth? tabWidth (ps ++ [.newline]) = lineWidth? tabWidth ps ∨
      Piece.Codeless ps ∧ lineWidth? tabWidth ps = some 0 ∧
        lineWidth? tabWidth (ps ++ [.newline]) = none := by
  have longer := dropWhile_isGap_append_newline ps []
  have gaps : ∀ p ∈ ps.takeWhile Piece.isGap, p.isGap := List.all_eq_true.1 List.all_takeWhile
  have whole := ps.takeWhile_append_dropWhile (p := Piece.isGap)
  cases line : ps.dropWhile Piece.isGap with
  | nil =>
      rw [line] at longer whole
      refine .inr ⟨fun p hp => .inl ?_,
        by rw [lineWidth?, countedWidth?, line], by rw [lineWidth?, countedWidth?, longer]; rfl⟩
      rw [List.append_nil] at whole
      exact gaps p (by rwa [whole])
  | cons p qs =>
      rw [line] at longer whole
      by_cases newline : p = .newline
      · subst newline
        exact .inl (by rw [lineWidth?, lineWidth?, countedWidth?, countedWidth?, line, longer]; rfl)
      by_cases comment : p.isComment
      · cases p with
        | comment text =>
            cases qs with
            | nil =>
                refine .inr ⟨fun p hp => ?_, by rw [lineWidth?, countedWidth?, line]; rfl,
                  by rw [lineWidth?, countedWidth?, longer]; rfl⟩
                obtain hp | hp := List.mem_append.1 (whole ▸ hp)
                · exact .inl (gaps p hp)
                · exact .inr (List.mem_singleton.1 hp ▸ rfl)
            | cons q qs =>
                exact .inl (by
                  rw [lineWidth?, lineWidth?, countedWidth?, countedWidth?, line, longer]; rfl)
        | _ => contradiction
      · have notReturn : p ≠ .blank '\r' := by
          rintro rfl
          exact noReturn (whole ▸ List.mem_append_right _ List.mem_cons_self)
        have notComment : ∀ text, p ≠ .comment text := by
          rintro text rfl
          exact comment rfl
        rw [lineWidth?_eq_width line newline (absurd · notReturn) notComment,
          lineWidth?_eq_width longer newline (absurd · notReturn) notComment,
          indentation_append_newline]
        exact .inl rfl

end Layout

namespace Event

/-- The tokens of the event that are no comments. -/
def codeTokens (keep : Bool) (e : Event) : List Token := (e.tokens keep).filter (·.kind ≠ .comment)

theorem flatMap_codeTokens (keep : Bool) (events : List Event) :
    events.flatMap (codeTokens keep) =
      (events.flatMap (Event.tokens keep)).filter (·.kind ≠ .comment) :=
  (List.filter_flatMap ..).symm

theorem codeTokens_newline (keep : Bool) (loc : Location) :
    codeTokens keep (.piece .newline loc) = [⟨.newline, "\n", loc⟩] := rfl

theorem codeTokens_ended (keep : Bool) (depth : Nat) (loc : Location) :
    codeTokens keep (.ended depth loc) =
      List.replicate depth ⟨.dedent, "", loc⟩ ++ [⟨.eof, "", loc⟩] := by
  simp [codeTokens, Event.tokens]

theorem codeTokens_codeless {p : Piece} (h : p.isGap ∨ p.isComment) (keep : Bool) (loc : Location) :
    codeTokens keep (.piece p loc) = [] := by
  cases p with
  | blank _ => rfl
  | comment text => cases keep <;> rfl
  | _ => simp [Piece.isGap, Piece.isComment] at h

theorem errors_codeless {p : Piece} (h : p.isGap ∨ p.isComment) (loc : Location) :
    Event.errors (.piece p loc) = [] := by
  cases p with
  | blank _ | comment _ => rfl
  | _ => simp [Piece.isGap, Piece.isComment] at h

end Event

namespace Scan

open Grammar (Ending Closings)

variable {o : ScanOptions} {l : Layout} {loc : Location} {ps : List Piece} {keep : Bool}

/-- Closing tokens for the given number of blocks and for the input. -/
def closing (depth : Nat) (loc loc' : Location) : List Token :=
  List.replicate depth ⟨.dedent, "", loc⟩ ++ [⟨.eof, "", loc'⟩]

theorem closings_closing (depth : Nat) (a b a' b' : Location) :
    Closings (closing depth a b) (closing depth a' b') := by
  induction depth with
  | zero => exact .cons ⟨.inr rfl, rfl⟩ .nil
  | succ _ ih => exact .cons ⟨.inl rfl, rfl⟩ ih

theorem ending_closing {n : Token} (newline : n.kind = .newline) (depth : Nat)
    (a b a' b' : Location) :
    Ending (closing depth a b) (n :: closing depth a' b') := by
  have closings := closings_closing depth a b a' b'
  cases depth with
  | zero => exact .newline newline closings
  | succ _ => exact .newline newline closings

theorem codeTokens_closed (levels : List Nat) (loc : Location) :
    ((levels.map Layout.Change.closed).map (Event.layout · loc)).flatMap (Event.codeTokens keep) =
      List.replicate levels.length ⟨.dedent, "", loc⟩ := by
  induction levels with
  | nil => rfl
  | cons _ _ ih =>
      rw [List.map_cons, List.map_cons, List.flatMap_cons, ih]
      rfl

/-- The second events are those of a text with a final newline, the first those without it. -/
structure Finished (keep : Bool) (events events' : List Event) : Prop where
  tokens : Ending (events.flatMap (Event.codeTokens keep)) (events'.flatMap (Event.codeTokens keep))
  errors : events'.flatMap Event.errors =
    (events.flatMap Event.errors).filter (!·.fault.isUnterminatedBlock)

theorem Finished.append {events events' front : List Event}
    (inner : ∀ e ∈ front, ∀ depth loc, e ≠ .ended depth loc) (h : Finished keep events events') :
    Finished keep (front ++ events) (front ++ events') where
  tokens := by
    rw [List.flatMap_append, List.flatMap_append]
    induction front.flatMap (Event.codeTokens keep) with
    | nil => exact h.tokens
    | cons t ts ih => exact .token ih
  errors := by
    have kept : (front.flatMap Event.errors).filter (!·.fault.isUnterminatedBlock) =
        front.flatMap Event.errors := by
      rw [List.filter_eq_self]
      intro error herror
      obtain ⟨e, he, herror⟩ := List.mem_flatMap.1 herror
      simp [Event.isUnterminatedBlock_of_mem_errors (inner e he) herror]
    rw [List.flatMap_append, List.flatMap_append, List.filter_append, kept, h.errors]

theorem Finished.cons_piece {events events' : List Event} (p : Piece)
    (h : Finished keep events events') :
    Finished keep (.piece p loc :: events) (.piece p loc :: events') := by
  have inner : ∀ e ∈ [Event.piece p loc], ∀ depth loc', e ≠ .ended depth loc' := by simp
  exact h.append inner

/-- The empty line behind a final newline closes all blocks. -/
theorem pieceEvents_finalNewline (rooted : l.Rooted) :
    (pieceEvents o l loc [.newline]).flatMap (Event.codeTokens keep) =
        ⟨.newline, "\n", loc⟩ :: closing l.levels.length (loc.next '\n') (loc.next '\n') ∧
      (pieceEvents o l loc [.newline]).flatMap Event.errors = [] := by
  have entered : l.enterLine o.tabWidth [] = (l.levels.map .closed, {}) := rooted.enter_zero
  rw [pieceEvents_newline, eventsFrom, lineEvents, entered]
  simp only [List.flatMap_cons, List.flatMap_append, codeTokens_closed, Event.codeTokens_newline,
    pieceEvents, Event.codeTokens_ended, List.flatMap_nil]
  refine ⟨by simp [closing, Layout.indentation, Location.advance], ?_⟩
  simp [Event.errors, Piece.fault?]

theorem flatMap_pieceEvents_codeless {α : Type} {f : Event → List α} (codeless : Piece.Codeless ps)
    (hf : ∀ {p : Piece}, p.isGap ∨ p.isComment → ∀ loc, f (.piece p loc) = []) (l : Layout)
    (qs : List Piece) :
    (pieceEvents o l loc (ps ++ qs)).flatMap f =
      (pieceEvents o l (loc.advance (ps.flatMap Piece.chars)) qs).flatMap f := by
  rw [flatMap_pieceEvents codeless.sameLine fun p hp loc => hf (codeless p hp) loc]
  simp

/-- A last line without code closes the blocks in front of it, or leaves that to the line below. -/
theorem finished_codeless (rooted : l.Rooted) (codeless : Piece.Codeless ps)
    (width : Layout.lineWidth? o.tabWidth ps = some 0)
    (width' : Layout.lineWidth? o.tabWidth (ps ++ [.newline]) = none) :
    Finished keep (eventsFrom o l loc ps) (eventsFrom o l loc (ps ++ [.newline])) := by
  have entered : l.enterLine o.tabWidth ps = (l.levels.map .closed, {}) := by
    rw [Layout.enterLine, width]
    exact rooted.enter_zero
  have entered' : l.enterLine o.tabWidth (ps ++ [.newline]) = ([], l) := by
    rw [Layout.enterLine, width']
  have tokens := @flatMap_pieceEvents_codeless o loc ps _ _ codeless
    fun h => Event.codeTokens_codeless h keep
  have errors := @flatMap_pieceEvents_codeless o loc ps _ _ codeless Event.errors_codeless
  have before := And.intro (tokens {} []) (errors {} [])
  rw [List.append_nil] at before
  obtain ⟨tokens', errors'⟩ :=
    @pieceEvents_finalNewline o l (loc.advance (ps.flatMap Piece.chars)) keep rooted
  rw [eventsFrom, eventsFrom, lineEvents, lineEvents, entered, entered', List.map_nil,
    List.nil_append]
  constructor
  · rw [List.flatMap_append, codeTokens_closed, before.1, tokens, tokens', pieceEvents,
      List.flatMap_singleton, Event.codeTokens_ended]
    exact ending_closing rfl _ _ _ _ _
  · rw [List.flatMap_append, before.2, errors, errors', pieceEvents, List.flatMap_singleton]
    simp [List.flatMap_map, Event.errors]

theorem finished_eventsFrom (rooted : l.Rooted) (noReturn : .blank '\r' ∉ ps)
    (more : ∀ {l : Layout}, l.Rooted →
      Finished keep (pieceEvents o l loc ps) (pieceEvents o l loc (ps ++ [.newline]))) :
    Finished keep (eventsFrom o l loc ps) (eventsFrom o l loc (ps ++ [.newline])) := by
  obtain width | ⟨codeless, width, width'⟩ := Layout.lineWidth?_concat_newline o.tabWidth noReturn
  · rw [eventsFrom_congr width (Layout.indentation_append_newline ps [])]
    refine Finished.append (fun e he => ?_) (more (rooted.enterLine _ _))
    obtain ⟨change, -, rfl⟩ := List.mem_map.1 he
    simp
  · exact finished_codeless rooted codeless width width'

theorem finished_pieceEvents (rooted : l.Rooted) (noReturn : .blank '\r' ∉ ps) :
    Finished keep (pieceEvents o l loc ps) (pieceEvents o l loc (ps ++ [.newline])) := by
  induction ps generalizing l loc with
  | nil =>
      obtain ⟨tokens, errors⟩ := @pieceEvents_finalNewline o l loc keep rooted
      constructor
      · rw [List.nil_append, tokens, pieceEvents, List.flatMap_singleton, Event.codeTokens_ended]
        exact ending_closing rfl _ _ _ _ _
      · rw [List.nil_append, errors, pieceEvents, List.flatMap_singleton, Event.errors]
        split <;> rfl
  | cons p ps ih =>
      rw [List.mem_cons, not_or] at noReturn
      by_cases newline : p = .newline
      · subst newline
        rw [List.cons_append, pieceEvents_newline, pieceEvents_newline]
        exact .cons_piece _
          (finished_eventsFrom rooted noReturn.2 fun rooted => ih rooted noReturn.2)
      · rw [List.cons_append, pieceEvents_cons newline, pieceEvents_cons newline]
        exact .cons_piece _ (ih rooted noReturn.2)

/-- The events of a text without returns, and those of the text with a final newline. -/
theorem finished_text {cs : List Char} (noReturn : '\r' ∉ cs) (o : ScanOptions) (keep : Bool) :
    Finished keep (eventsFrom o {} .start (Piece.split cs))
      (eventsFrom o {} .start (Piece.split cs ++ [.newline])) := by
  have rooted : Layout.Rooted {} := ⟨by simp, fun _ => rfl⟩
  have noReturn' : .blank '\r' ∉ Piece.split cs := by
    intro h
    refine noReturn ?_
    rw [← Piece.flatMap_chars_split cs]
    exact List.mem_flatMap.2 ⟨_, h, List.mem_singleton_self _⟩
  exact finished_eventsFrom rooted noReturn' fun rooted => finished_pieceEvents rooted noReturn'

theorem exists_mem_pieceEvents {p : Piece} (h : p ∈ ps) :
    ∃ loc', .piece p loc' ∈ pieceEvents o l loc ps := by
  fun_induction pieceEvents o l loc ps with
  | case1 => simp at h
  | case2 l loc rest below ih =>
      obtain rfl | h := List.mem_cons.1 h
      · exact ⟨loc, List.mem_cons_self⟩
      · obtain ⟨loc', later⟩ := ih h
        exact ⟨loc', List.mem_append_right _ later⟩
  | case3 l loc q rest _ ih =>
      obtain rfl | h := List.mem_cons.1 h
      · exact ⟨loc, List.mem_cons_self⟩
      · obtain ⟨loc', later⟩ := ih h
        exact ⟨loc', List.mem_cons_of_mem _ later⟩

/-- An open string literal is reported. -/
theorem closed_of_errors {source : String}
    (closed : ∀ e ∈ (ofString source o).errors, e.fault ≠ .unterminatedString) (body : List Char) :
    .quoted body false ∉ Piece.split source.toList := by
  intro h
  obtain ⟨loc, hmem⟩ := @exists_mem_pieceEvents o
    (Layout.enterLine {} o.tabWidth (Piece.split source.toList)).2 .start _ _ h
  refine closed ⟨.unterminatedString, loc⟩ ?_ rfl
  rw [errors_ofString]
  exact List.mem_flatMap.2 ⟨_, List.mem_append_right _ hmem, List.mem_singleton_self _⟩

theorem Nested.exists_ended {last : Location} {levels : List Nat} {events : List Event}
    (h : Nested last levels events) :
    ∃ front depth, events = front ++ [.ended depth last] ∧
      ∀ e ∈ front, ∀ depth loc, e ≠ .ended depth loc := by
  induction h with
  | piece _ _ ih | opened _ ih | closed _ ih | misaligned _ ih =>
      obtain ⟨front, depth, rfl, inner⟩ := ih
      refine ⟨_ :: front, depth, rfl, ?_⟩
      rw [List.forall_mem_cons]
      exact ⟨by simp, inner⟩
  | @ended levels => exact ⟨[], _, rfl, by simp⟩

/-- Where the end of the input is reported to be inside blocks, so many blocks are open there. -/
theorem open_of_unterminatedBlock {source : String} {depth : Nat} {loc : Location}
    (h : ⟨.unterminatedBlock depth, loc⟩ ∈ (ofString source o).errors) :
    0 < depth ∧ ∃ front, (ofString source o).tokens = front ++ closing depth loc loc ∧
      countKind .indent front = countKind .dedent front + depth := by
  have nested := nested_ofChars o .start source.toList
  generalize Location.start.advance source.toList = last at nested
  obtain ⟨front, left, events, inner⟩ := nested.exists_ended
  change (ofString source o).events = _ at events
  have tokens : (ofString source o).tokens =
      front.flatMap (Event.tokens o.keepComments) ++ closing left last last := by
    change (ofString source o).events.flatMap (Event.tokens o.keepComments) = _
    rw [events, List.flatMap_append, List.flatMap_singleton]
    rfl
  have balanced := (balanced_ofChars o .start source.toList).countKind_eq
  change countKind .dedent (ofString source o).tokens =
    countKind .indent (ofString source o).tokens + 0
    at balanced
  obtain ⟨e, he, herror⟩ := List.mem_flatMap.1 h
  obtain he | he := List.mem_append.1 (events ▸ he)
  · have other := Event.isUnterminatedBlock_of_mem_errors (inner e he) herror
    contradiction
  · obtain rfl := List.mem_singleton.1 he
    rw [Event.errors] at herror
    split at herror
    case isTrue => contradiction
    case isFalse inside =>
      cases List.mem_singleton.1 herror
      refine ⟨Nat.pos_of_ne_zero inside, _, tokens, ?_⟩
      rw [tokens] at balanced
      simpa [countKind, closing, List.countP_append, List.countP_replicate] using balanced.symm

end Scan

open Scan (closing)

/-- A missing final newline changes no program: a text without returns and without an open string
literal, and the text with a newline behind it, have the same errors, except that the end of the
first may be inside blocks, and make the same program or none. -/
theorem scan_concat_newline {source : String} {o : ScanOptions} (noReturn : '\r' ∉ source.toList)
    (closed : ∀ e ∈ (Scan.ofString source o).errors, e.fault ≠ .unterminatedString) :
    let scan := Scan.ofString source o
    let scan' := Scan.ofString (source ++ "\n") o
    scan'.errors = scan.errors.filter (!·.fault.isUnterminatedBlock) ∧
    (∀ depth loc, ⟨.unterminatedBlock depth, loc⟩ ∈ scan.errors →
      source.toList.getLast? ≠ some '\n' ∧ 0 < depth ∧
      ∃ front, scan.tokens = front ++ closing depth loc loc ∧
        countKind .indent front = countKind .dedent front + depth) ∧
    ∀ p, parse scan.tokens = .ok p ↔ parse scan'.tokens = .ok p := by
  intro scan scan'
  have closed' := Scan.closed_of_errors closed
  have pieces : Piece.split (source ++ "\n").toList = Piece.split source.toList ++ [.newline] := by
    rw [String.toList_append]
    obtain newline | ⟨front, body, last, -⟩ := Piece.split_concat_newline source.toList
    · exact newline
    · exact absurd (last ▸ List.mem_append_right _ (List.mem_singleton_self _)) (closed' body)
  obtain ⟨tokens, errors⟩ := Scan.finished_text noReturn o o.keepComments
  rw [← pieces, ← Scan.errors_ofString, ← Scan.errors_ofString] at errors
  refine ⟨errors, fun depth loc h => ⟨fun last => ?_, Scan.open_of_unterminatedBlock h⟩,
    fun p => ?_⟩
  · obtain ⟨cs, hcs⟩ := List.getLast?_eq_some_iff.1 last
    obtain newline | ⟨front, body, -, longer⟩ := Piece.split_concat_newline cs
    · have noReturn' : '\r' ∉ cs := by
        intro h
        exact noReturn (hcs ▸ List.mem_append_left _ h)
      have none := (Scan.finished_text noReturn' o o.keepComments).errors
      rw [← newline, ← hcs, ← Scan.errors_ofString] at none
      have h' := List.mem_filter.1 (none ▸ h)
      simp [LexError.Fault.isUnterminatedBlock] at h'
    · refine closed' (body ++ ['\n']) ?_
      rw [hcs, longer]
      exact List.mem_append_right _ (List.mem_singleton_self _)
  · rw [← pieces, Event.flatMap_codeTokens, Event.flatMap_codeTokens, ← Scan.tokens_ofString,
      ← Scan.tokens_ofString] at tokens
    rw [← Grammar.parse_withoutComments scan.tokens, ← Grammar.parse_withoutComments scan'.tokens]
    exact (Grammar.parse_of_ending tokens (Grammar.ended_ofString source o)
      (Grammar.ended_ofString (source ++ "\n") o) p).symm

/-- A loop with a branch, at the end of which both blocks are open; the string literal holds a
newline. -/
def unfinished : String := "mientras (a)\n  si (b)\n    c = \"\n\" ~ fin"

theorem scan_concat_newline_unfinished :
    let scan := Scan.ofString unfinished {}
    let scan' := Scan.ofString (unfinished ++ "\n") {}
    '\r' ∉ unfinished.toList ∧ (∀ e ∈ scan.errors, e.fault ≠ .unterminatedString) ∧
    scan.errors = [⟨.unterminatedBlock 2, ⟨4, 8⟩⟩] ∧ scan'.errors = [] ∧
    ∃ p, parse scan.tokens = .ok p ∧ parse scan'.tokens = .ok p := by
  intro scan scan'
  have errors : scan.errors = [⟨.unterminatedBlock 2, ⟨4, 8⟩⟩] := by decide +kernel
  have closed : ∀ e ∈ scan.errors, e.fault ≠ .unterminatedString := by simp [errors]
  have noReturn : '\r' ∉ unfinished.toList := by decide +kernel
  obtain ⟨errors', -, same⟩ := scan_concat_newline (o := {}) noReturn closed
  have parsed : (parse scan.tokens).toBool = true := by decide +kernel
  cases outcome : parse scan.tokens with
  | error e => simp [outcome, Except.toBool] at parsed
  | ok p =>
      refine ⟨noReturn, closed, errors, ?_, p, rfl, (same p).1 outcome⟩
      exact errors'.trans (congrArg _ errors)

end PasoFrontEnd
