import PasoFrontEnd.Proofs.Layout.LineText
import PasoFrontEnd.Proofs.Scan.Nesting

/-!
Where the events of a scan have their places. Events follow each other from line to line; those in
front of a newline do not depend on the text behind it, and those behind it do not depend on the
text in front of it but for the open blocks and the number of the line.
-/

namespace PasoFrontEnd

namespace Location

theorem line_advance (loc : Location) (cs : List Char) :
    (loc.advance cs).line = loc.line + cs.count '\n' := by
  induction cs generalizing loc with
  | nil => rfl
  | cons c cs ih =>
      change ((loc.next c).advance cs).line = _
      rw [ih]
      by_cases h : c = '\n'
      · simp [next, h]
        omega
      · simp [next, h]

/-- On one line the column counts the characters. -/
theorem advance_of_sameLine {cs : List Char} (sameLine : '\n' ∉ cs) (loc : Location) :
    loc.advance cs = ⟨loc.line, loc.column + cs.length⟩ := by
  induction cs generalizing loc with
  | nil => rfl
  | cons c cs ih =>
      simp only [List.mem_cons, not_or] at sameLine
      change (loc.next c).advance cs = _
      rw [ih sameLine.2, next, if_neg (Ne.symm sameLine.1), List.length_cons]
      simp only [mk.injEq, true_and]
      omega

/-- Going on from a place leads to another place. -/
theorem eq_nil_of_advance {loc : Location} {cs : List Char} (h : loc.advance cs = loc) :
    cs = [] := by
  have line := congrArg Location.line h
  rw [line_advance] at line
  have sameLine : '\n' ∉ cs := List.count_eq_zero.1 (by omega)
  have column := congrArg Location.column ((advance_of_sameLine sameLine loc).symm.trans h)
  exact List.length_eq_zero_iff.1 (by simpa using column)

/-- No two places in a text are the same. -/
theorem eq_of_behind {a b text : List Char} (ha : a <+: text) (hb : b <+: text)
    (h : behind a = behind b) : a = b := by
  obtain ⟨c, rfl⟩ | ⟨c, rfl⟩ := List.prefix_or_prefix_of_prefix ha hb
  · rw [behind_append] at h
    rw [eq_nil_of_advance h.symm, List.append_nil]
  · rw [behind_append] at h
    rw [eq_nil_of_advance h, List.append_nil]

end Location

namespace Event

def location : Event → Location
  | piece _ loc | layout _ loc | ended _ loc => loc

theorem location_of_mem_tokens {e : Event} {keep : Bool} {t : Token} (h : t ∈ e.tokens keep) :
    t.location = e.location := by
  cases e with
  | piece p loc =>
      simp only [tokens] at h
      split at h
      · rw [List.mem_singleton.1 h]
        rfl
      · contradiction
  | layout change loc =>
      cases change with
      | opened _ | closed _ =>
          rw [List.mem_singleton.1 h]
          rfl
      | misaligned _ => contradiction
  | ended depth loc =>
      obtain h | h := List.mem_append.1 h
      · rw [List.eq_of_mem_replicate h]
        rfl
      · rw [List.mem_singleton.1 h]
        rfl

theorem location_of_mem_errors {e : Event} {error : LexError} (h : error ∈ e.errors) :
    error.location = e.location := by
  cases e with
  | piece p loc =>
      simp only [errors] at h
      split at h
      · rw [List.mem_singleton.1 h]
        rfl
      · contradiction
  | layout change loc =>
      cases change with
      | misaligned _ =>
          rw [List.mem_singleton.1 h]
          rfl
      | opened _ | closed _ => contradiction
  | ended depth loc =>
      simp only [errors] at h
      split at h
      · contradiction
      · rw [List.mem_singleton.1 h]
        rfl

theorem forall_mem_tokens {P : Location → Prop} {events : List Event}
    (h : ∀ e ∈ events, P e.location) (keep : Bool) :
    ∀ t ∈ events.flatMap (tokens keep), P t.location := by
  intro t ht
  obtain ⟨e, he, ht⟩ := List.mem_flatMap.1 ht
  rw [location_of_mem_tokens ht]
  exact h e he

theorem forall_mem_errors {P : Location → Prop} {events : List Event}
    (h : ∀ e ∈ events, P e.location) : ∀ error ∈ events.flatMap errors, P error.location := by
  intro error herror
  obtain ⟨e, he, herror⟩ := List.mem_flatMap.1 herror
  rw [location_of_mem_errors herror]
  exact h e he

/-- The event at another place. -/
def relocate (f : Location → Location) : Event → Event
  | piece p loc => piece p (f loc)
  | layout change loc => layout change (f loc)
  | ended depth loc => ended depth (f loc)

end Event

namespace Scan

variable {o : ScanOptions} {l : Layout} {loc : Location} {ps : List Piece} {e : Event}

theorem newline_not_mem_indentation (ps : List Piece) : '\n' ∉ Layout.indentation ps := by
  intro h
  obtain ⟨p, hp, hchars⟩ := List.mem_flatMap.1 h
  have gap := List.all_eq_true.1 List.all_takeWhile p hp
  cases p with
  | blank c =>
      obtain rfl := List.mem_singleton.1 hchars
      contradiction
  | _ => contradiction

theorem line_advance_indentation (loc : Location) (ps : List Piece) :
    (loc.advance (Layout.indentation ps)).line = loc.line := by
  rw [Location.line_advance, List.count_eq_zero.2 (newline_not_mem_indentation ps), Nat.add_zero]

/-- The changes at the beginning of a line have their places on it. -/
theorem line_of_mem_lineEvents (h : e ∈ lineEvents o l loc ps) : e.location.line = loc.line := by
  obtain ⟨change, -, rfl⟩ := List.mem_map.1 h
  exact line_advance_indentation loc ps

theorem line_le_of_mem_pieceEvents (h : e ∈ pieceEvents o l loc ps) :
    loc.line ≤ e.location.line := by
  fun_induction pieceEvents o l loc ps with
  | case1 =>
      rw [List.mem_singleton.1 h]
      exact Nat.le_refl _
  | case2 l loc rest below ih =>
      simp only [List.cons_append, List.mem_cons, List.mem_append] at h
      obtain rfl | h | h := h
      · exact Nat.le_refl _
      · rw [line_of_mem_lineEvents h]
        exact Nat.le_succ _
      · exact Nat.le_trans (Nat.le_succ _) (ih h)
  | case3 l loc p rest _ ih =>
      obtain rfl | h := List.mem_cons.1 h
      · exact Nat.le_refl _
      · have later := ih h
        rw [Location.line_advance] at later
        omega

theorem line_le_of_mem_eventsFrom (h : e ∈ eventsFrom o l loc ps) : loc.line ≤ e.location.line := by
  obtain h | h := List.mem_append.1 h
  · exact Nat.le_of_eq (line_of_mem_lineEvents h).symm
  · exact line_le_of_mem_pieceEvents h

/-- Lines of one width and one indentation begin in the same way. -/
theorem eventsFrom_congr {ps' : List Piece}
    (width : Layout.lineWidth? o.tabWidth ps' = Layout.lineWidth? o.tabWidth ps)
    (indentation : Layout.indentation ps' = Layout.indentation ps) :
    eventsFrom o l loc ps' =
      lineEvents o l loc ps ++ pieceEvents o (l.enterLine o.tabWidth ps).2 loc ps' := by
  have entered : l.enterLine o.tabWidth ps' = l.enterLine o.tabWidth ps := by
    rw [Layout.enterLine, Layout.enterLine, width]
  rw [eventsFrom, lineEvents, lineEvents, entered, indentation]

theorem enterLine_append_newline (l : Layout) (tabWidth : Nat) (ps qs qs' : List Piece) :
    l.enterLine tabWidth (ps ++ .newline :: qs) = l.enterLine tabWidth (ps ++ .newline :: qs') := by
  unfold Layout.enterLine
  rw [Layout.lineWidth?_append_newline ps qs qs']

theorem lineEvents_append_newline (ps qs qs' : List Piece) :
    lineEvents o l loc (ps ++ .newline :: qs) = lineEvents o l loc (ps ++ .newline :: qs') := by
  unfold lineEvents
  rw [enterLine_append_newline l _ ps qs qs', Layout.indentation_append_newline,
    Layout.indentation_append_newline]

/-- The events as far as a newline: with the given place behind them, and with a layout that is left
as it is by all that follows. -/
structure Heads (o : ScanOptions) (below : Location) (events : List Event) (after : Layout)
    (whole : List Piece → List Event) : Prop where
  append : ∀ qs, whole qs = events ++ eventsFrom o after below qs
  above : ∀ e ∈ events, e.location.line < below.line
  newline : ∃ loc, events.getLast? = some (.piece .newline loc)

theorem Heads.prepend {below : Location} {events : List Event} {after : Layout}
    {whole whole' : List Piece → List Event} (h : Heads o below events after whole)
    (front : List Event) (append : ∀ qs, whole' qs = front ++ whole qs)
    (above : ∀ e ∈ front, e.location.line < below.line) :
    Heads o below (front ++ events) after whole' where
  append qs := by rw [append, h.append, List.append_assoc]
  above e he := (List.mem_append.1 he).elim (above e) (h.above e)
  newline := by
    obtain ⟨loc, last⟩ := h.newline
    exact ⟨loc, by rw [List.getLast?_append, last]; rfl⟩

theorem exists_heads_pieceEvents (o : ScanOptions) (l : Layout) (loc : Location) (ps : List Piece) :
    ∃ events after, Heads o (loc.advance (ps.flatMap Piece.chars ++ ['\n'])) events after
      fun qs => pieceEvents o l loc (ps ++ .newline :: qs) := by
  induction ps generalizing l loc with
  | nil =>
      refine ⟨[.piece .newline loc], l, fun qs => rfl, fun e he => ?_, loc, rfl⟩
      rw [List.mem_singleton.1 he]
      exact Nat.lt_succ_self _
  | cons p ps ih =>
      rw [List.flatMap_cons, List.append_assoc, Location.advance_append]
      by_cases newline : p = .newline
      · subst newline
        -- the next line is measured without the text behind its newline
        obtain ⟨events, after, heads⟩ :=
          ih (l.enterLine o.tabWidth (ps ++ [.newline])).2 (loc.next '\n')
        have below : loc.line + 1 <
            ((loc.next '\n').advance (ps.flatMap Piece.chars ++ ['\n'])).line := by
          rw [Location.line_advance, List.count_append]
          exact Nat.lt_add_of_pos_right (by simp)
        refine ⟨_, after, heads.prepend (.piece .newline loc ::
          lineEvents o l (loc.next '\n') (ps ++ [.newline])) (fun qs => ?_) fun e he => ?_⟩
        · rw [List.cons_append, pieceEvents_newline, eventsFrom, lineEvents_append_newline ps qs [],
            enterLine_append_newline l _ ps qs [], List.cons_append]
        · obtain rfl | he := List.mem_cons.1 he
          · exact Nat.lt_of_succ_lt below
          · rw [line_of_mem_lineEvents he]
            exact below
      · obtain ⟨events, after, heads⟩ := ih l (loc.advance p.chars)
        refine ⟨_, after, heads.prepend [.piece p loc]
          (fun qs => pieceEvents_cons newline o l loc _) fun e he => ?_⟩
        rw [List.mem_singleton.1 he, Location.line_advance, Location.line_advance,
          List.count_append]
        change loc.line < _
        simp
        omega

theorem exists_heads_eventsFrom (o : ScanOptions) (l : Layout) (loc : Location) (ps : List Piece) :
    ∃ events after, Heads o (loc.advance (ps.flatMap Piece.chars ++ ['\n'])) events after
      fun qs => eventsFrom o l loc (ps ++ .newline :: qs) := by
  obtain ⟨events, after, heads⟩ :=
    exists_heads_pieceEvents o (l.enterLine o.tabWidth (ps ++ [.newline])).2 loc ps
  refine ⟨_, after, heads.prepend (lineEvents o l loc (ps ++ [.newline])) (fun qs => ?_)
    fun e he => ?_⟩
  · rw [eventsFrom, lineEvents_append_newline ps qs [], enterLine_append_newline l _ ps qs []]
  · rw [line_of_mem_lineEvents he, Location.line_advance, List.count_append]
    simp

theorem advance_relocate {f : Location → Location} (hf : ∀ loc c, f (loc.next c) = (f loc).next c)
    (loc : Location) (cs : List Char) : (f loc).advance cs = f (loc.advance cs) := by
  induction cs generalizing loc with
  | nil => rfl
  | cons c cs ih =>
      change ((f loc).next c).advance cs = f ((loc.next c).advance cs)
      rw [← hf, ih]

theorem lineEvents_relocate {f : Location → Location}
    (hf : ∀ loc c, f (loc.next c) = (f loc).next c) (o : ScanOptions) (l : Layout) (loc : Location)
    (ps : List Piece) :
    lineEvents o l (f loc) ps = (lineEvents o l loc ps).map (Event.relocate f) := by
  unfold lineEvents
  rw [List.map_map, advance_relocate hf]
  rfl

/-- A change of places that goes along with reading changes nothing but the places of the events. -/
theorem pieceEvents_relocate {f : Location → Location}
    (hf : ∀ loc c, f (loc.next c) = (f loc).next c) (o : ScanOptions) (l : Layout) (loc : Location)
    (ps : List Piece) :
    pieceEvents o l (f loc) ps = (pieceEvents o l loc ps).map (Event.relocate f) := by
  fun_induction pieceEvents o l loc ps with
  | case1 => rfl
  | case2 l loc rest below ih =>
      rw [pieceEvents_newline, eventsFrom, ← hf, lineEvents_relocate hf, ih, List.cons_append,
        List.map_cons, List.map_append]
      rfl
  | case3 l loc p rest newline ih =>
      rw [pieceEvents_cons (by simpa using newline), advance_relocate hf, ih, List.map_cons]
      rfl

theorem eventsFrom_relocate {f : Location → Location}
    (hf : ∀ loc c, f (loc.next c) = (f loc).next c) (o : ScanOptions) (l : Layout) (loc : Location)
    (ps : List Piece) :
    eventsFrom o l (f loc) ps = (eventsFrom o l loc ps).map (Event.relocate f) := by
  rw [eventsFrom, lineEvents_relocate hf, pieceEvents_relocate hf, ← List.map_append, eventsFrom]

theorem exists_of_mem_pieceEvents {p : Piece} {place : Location}
    (h : .piece p place ∈ pieceEvents o l loc ps) :
    ∃ front back, ps = front ++ p :: back ∧ place = loc.advance (front.flatMap Piece.chars) := by
  fun_induction pieceEvents o l loc ps with
  | case1 => simp at h
  | case2 l loc rest below ih =>
      simp only [List.cons_append, List.mem_cons, List.mem_append, lineEvents, List.mem_map,
        reduceCtorEq, and_false, exists_false, false_or] at h
      obtain h | h := h
      · cases h
        exact ⟨[], rest, rfl, rfl⟩
      · obtain ⟨front, back, rfl, rfl⟩ := ih h
        exact ⟨.newline :: front, back, rfl,
          by rw [List.flatMap_cons, Location.advance_append]; rfl⟩
  | case3 l loc q rest newline ih =>
      obtain h | h := List.mem_cons.1 h
      · cases h
        exact ⟨[], rest, rfl, rfl⟩
      · obtain ⟨front, back, rfl, rfl⟩ := ih h
        exact ⟨q :: front, back, rfl, by rw [List.flatMap_cons, Location.advance_append]⟩

/-- Every piece has its place behind the pieces in front of it. -/
theorem exists_of_mem_eventsFrom {p : Piece} {place : Location}
    (h : .piece p place ∈ eventsFrom o l loc ps) :
    ∃ front back, ps = front ++ p :: back ∧ place = loc.advance (front.flatMap Piece.chars) := by
  obtain h | h := List.mem_append.1 h
  · obtain ⟨_, _, h⟩ := List.mem_map.1 h
    contradiction
  · exact exists_of_mem_pieceEvents h

theorem tokens_ofString (source : String) (o : ScanOptions) :
    (ofString source o).tokens = (eventsFrom o {} .start (Piece.split source.toList)).flatMap
      (Event.tokens o.keepComments) := rfl

theorem errors_ofString (source : String) (o : ScanOptions) :
    (ofString source o).errors =
      (eventsFrom o {} .start (Piece.split source.toList)).flatMap Event.errors := rfl

end Scan

end PasoFrontEnd
