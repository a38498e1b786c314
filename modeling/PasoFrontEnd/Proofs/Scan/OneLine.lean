import Mathlib.Data.List.Pairwise
import PasoFrontEnd.Proofs.Scan.Order
import PasoFrontEnd.Proofs.Scan.Places

/-!
What a scan puts out on one line. From every error on there is a token on its line, since whatever
begins no token ends no line either; and where nothing is wrong with the text, the block markers of
a line are all the same token.
-/

namespace PasoFrontEnd

/-- Only a character that begins no token is reported as such. -/
theorem Event.eq_of_invalidCharacter {event : Event} {e : LexError} {c : Char}
    (h : e ∈ event.errors) (fault : e.fault = .invalidCharacter c) :
    event = .piece (.rejected c) e.location := by
  have place := location_of_mem_errors h
  cases event with
  | ended depth loc =>
      by_cases outside : depth = 0 <;> simp [Event.errors, outside] at h
      simp [h] at fault
  | layout change loc =>
      cases change <;> simp [Event.errors] at h
      simp [h] at fault
  | piece p loc =>
      cases p with
      | quoted body closed =>
          cases closed <;> simp [Event.errors, Piece.fault?] at h
          simp [h] at fault
      | rejected d =>
          obtain rfl := List.mem_singleton.1 h
          by_cases negation : d = '!' <;> simp [negation] at fault
          rw [fault]
      | _ => contradiction

namespace Scan

section errors

variable {keep : Bool} {before rest : List Char} {ts : List Token} {es : List LexError}

theorem line_behind_append {cs : List Char} (sameLine : '\n' ∉ cs) (before : List Char) :
    (Location.behind (before ++ cs)).line = (Location.behind before).line := by
  rw [Location.behind_append, Location.line_advance, List.count_eq_zero.2 sameLine, Nat.add_zero]

/-- From every place of a text on there is a token on its line, if no newline is taken for an
error. -/
theorem Covers.exists_token (h : Covers keep before rest ts es)
    (kept : ∀ e ∈ es, e.fault ≠ .invalidCharacter '\n') :
    ∃ t ∈ ts, Location.behind before ≤ t.location ∧
    t.location.line = (Location.behind before).line := by
  have ordered := h.inOrder.tokens_from
  suffices ∃ t ∈ ts, t.location.line = (Location.behind before).line by
    obtain ⟨t, ht, line⟩ := this
    exact ⟨t, ht, ordered t ht, line⟩
  clear ordered
  induction h with
  | newline | written | text | openText | comment | marker | ended =>
      exact ⟨_, List.mem_cons_self, rfl⟩
  | @leftOut before text _ _ _ _ sameLine _ _ ih =>
      have onLine : '\n' ∉ '~' :: text := by simpa using sameLine
      exact line_behind_append onLine before ▸ ih kept
  | @blank before c _ _ _ _ sameLine _ ih =>
      have onLine : '\n' ∉ [c] := by simpa using Ne.symm sameLine
      exact line_behind_append onLine before ▸ ih kept
  | @rejected before c _ _ _ _ ih =>
      rw [List.forall_mem_cons] at kept
      have onLine : '\n' ∉ [c] := by
        rw [List.mem_singleton]
        rintro rfl
        exact kept.1 rfl
      exact line_behind_append onLine before ▸ ih kept.2
  | misaligned _ _ ih | openBlocks _ ih => exact ih fun e he => kept e (List.mem_cons_of_mem _ he)

theorem Covers.exists_token_of_mem_errors (h : Covers keep before rest ts es)
    (kept : ∀ e ∈ es, e.fault ≠ .invalidCharacter '\n') :
    ∀ e ∈ es, ∃ t ∈ ts, e.location ≤ t.location ∧ t.location.line = e.location.line := by
  have here := h.exists_token kept
  induction h with
  | newline more ih | written _ _ more ih | text _ more ih | comment _ _ _ more ih
  | marker _ _ more ih =>
      intro e he
      obtain ⟨t, ht, later⟩ := ih kept (more.exists_token kept) e he
      exact ⟨t, List.mem_cons_of_mem _ ht, later⟩
  | leftOut _ _ _ more ih | blank _ _ more ih => exact ih kept (more.exists_token kept)
  | openText _ more ih =>
      rw [List.forall_mem_cons] at kept ⊢
      refine ⟨here, fun e he => ?_⟩
      obtain ⟨t, ht, later⟩ := ih kept.2 (more.exists_token kept.2) e he
      exact ⟨t, List.mem_cons_of_mem _ ht, later⟩
  | rejected more ih | misaligned _ more ih | openBlocks more ih =>
      rw [List.forall_mem_cons] at kept ⊢
      exact ⟨here, ih kept.2 (more.exists_token kept.2)⟩
  | ended => simp

end errors

theorem ne_newline_of_mem_errors {source : String} {o : ScanOptions} {e : LexError}
    (h : e ∈ (ofString source o).errors) : e.fault ≠ .invalidCharacter '\n' := by
  intro fault
  rw [errors_ofString] at h
  obtain ⟨event, hevent, he⟩ := List.mem_flatMap.1 h
  obtain rfl := Event.eq_of_invalidCharacter he fault
  obtain ⟨front, back, hsplit, -⟩ := exists_of_mem_eventsFrom hevent
  have mem : .rejected '\n' ∈ Piece.split source.toList := by simp [hsplit]
  obtain ⟨rest, stands⟩ := Piece.exists_stands_of_mem_split mem
  cases stands with
  | rejected sameLine => exact sameLine rfl

/-- From every lexical error on there is a token on its line. -/
theorem exists_token_of_mem_errors {source : String} {o : ScanOptions} {e : LexError}
    (h : e ∈ (ofString source o).errors) :
    ∃ t ∈ (ofString source o).tokens, e.location ≤ t.location ∧ t.location.line = e.location.line :=
  (covers_ofString source o).exists_token_of_mem_errors (fun _ => ne_newline_of_mem_errors) e h

section markers

variable {o : ScanOptions} {l : Layout} {loc : Location} {keep : Bool}

/-- A line puts out one block marker, as often as it takes. -/
theorem tokens_lineEvents (o : ScanOptions) (l : Layout) (loc : Location) (ps : List Piece)
    (keep : Bool) :
    ∃ n t, (lineEvents o l loc ps).flatMap (Event.tokens keep) = List.replicate n t ∧
      t.location.line = loc.line := by
  have line := line_advance_indentation loc ps
  unfold lineEvents Layout.enterLine
  generalize loc.advance (Layout.indentation ps) = place at *
  cases Layout.lineWidth? o.tabWidth ps with
  | none => exact ⟨0, ⟨.indent, "", place⟩, rfl, line⟩
  | some width =>
      simp only [Layout.enter]
      split
      case isTrue wider => exact ⟨1, ⟨.indent, "", place⟩, rfl, line⟩
      case isFalse =>
        split
        case isTrue narrower =>
          refine ⟨(l.levels.takeWhile (width < ·)).length, ⟨.dedent, "", place⟩, ?_, line⟩
          generalize l.levels.takeWhile (width < ·) = closed
          rw [List.map_append, List.flatMap_append]
          split <;>
          · simp only [List.map_cons, List.map_nil, List.flatMap_cons, List.flatMap_nil,
              Event.tokens, List.append_nil]
            induction closed with
            | nil => rfl
            | cons level closed ih => exact congrArg (_ :: ·) ih
        case isFalse same => exact ⟨0, ⟨.indent, "", place⟩, rfl, line⟩

/-- Tokens that stand on different lines unless they are the same. -/
def SameOnLine (t u : Token) : Prop := t.location.line = u.location.line → t = u

instance : Std.Symm SameOnLine := ⟨fun _ _ same line => (same line.symm).symm⟩

/-- The block markers that the events put out. -/
def markers (keep : Bool) (events : List Event) : List Token :=
  (events.flatMap (Event.tokens keep)).filter Token.isMarker

theorem markers_append (events more : List Event) :
    markers keep (events ++ more) = markers keep events ++ markers keep more := by
  rw [markers, List.flatMap_append, List.filter_append, markers, markers]

theorem markers_piece {p : Piece} {rest : List Char} (stands : p.Stands rest) (loc : Location) :
    markers keep [.piece p loc] = [] := by
  rw [markers, List.flatMap_singleton]
  refine List.filter_eq_nil_iff.2 fun t ht => ?_
  have kind := Event.kind_of_mem_tokens stands ht
  simp [Token.isMarker, kind.1, kind.2.1]

/-- The markers at the beginning of a line stand on it, and those behind them do not. -/
theorem markers_eventsFrom {ps : List Piece}
    (more : ∀ t ∈ markers keep (pieceEvents o (l.enterLine o.tabWidth ps).2 loc ps),
      loc.line < t.location.line)
    (apart : (markers keep (pieceEvents o (l.enterLine o.tabWidth ps).2 loc ps)).Pairwise
      SameOnLine) :
    (∀ t ∈ markers keep (eventsFrom o l loc ps), loc.line ≤ t.location.line) ∧
      (markers keep (eventsFrom o l loc ps)).Pairwise SameOnLine := by
  obtain ⟨n, first, hline, line⟩ := tokens_lineEvents o l loc ps keep
  have here : ∀ t ∈ markers keep (lineEvents o l loc ps), t = first := fun t ht =>
    List.eq_of_mem_replicate (hline ▸ List.mem_of_mem_filter ht)
  rw [eventsFrom, markers_append]
  constructor
  · intro t ht
    obtain ht | ht := List.mem_append.1 ht
    · exact here t ht ▸ ge_of_eq line
    · exact le_of_lt (more t ht)
  · refine List.pairwise_append.2 ⟨?_, apart, fun t ht u hu same => ?_⟩
    · exact .filter _ (hline ▸ List.pairwise_replicate.2 (.inr fun _ => rfl))
    · have below := more u hu
      rw [← same, here t ht, line] at below
      exact absurd below (Nat.lt_irrefl _)

/-- Where a line has begun, the block markers to come stand on further lines, and two that differ on
different ones. -/
theorem markers_pieceEvents {ps : List Piece} (stands : ∀ p ∈ ps, ∃ rest, p.Stands rest)
    (faultless : (pieceEvents o l loc ps).flatMap Event.errors = []) :
    (∀ t ∈ markers keep (pieceEvents o l loc ps), loc.line < t.location.line) ∧
      (markers keep (pieceEvents o l loc ps)).Pairwise SameOnLine := by
  fun_induction pieceEvents o l loc ps with
  | case1 l loc =>
      -- no blocks are left for the end of the input to close
      have outside : l.levels.length = 0 := by simpa [Event.errors] using faultless
      simp [markers, Event.tokens, outside, Token.isMarker]
  | case2 l loc rest below ih =>
      rw [List.cons_append, List.flatMap_cons, List.flatMap_append, List.append_eq_nil_iff,
        List.append_eq_nil_iff] at faultless
      obtain ⟨later, apart⟩ := ih (fun p hp => stands p (by simp [hp])) faultless.2.2
      have newline : markers keep [.piece .newline loc] = [] :=
        markers_piece (@Piece.Stands.newline []) loc
      rw [List.cons_append, ← List.singleton_append, markers_append, newline]
      exact markers_eventsFrom later apart
  | case3 l loc p rest _ ih =>
      rw [List.flatMap_cons, List.append_eq_nil_iff] at faultless
      obtain ⟨later, apart⟩ := ih (fun p hp => stands p (by simp [hp])) faultless.2
      obtain ⟨_, standing⟩ := stands p List.mem_cons_self
      rw [← List.singleton_append, markers_append, markers_piece standing]
      refine ⟨fun t ht => lt_of_le_of_lt ?_ (later t ht), apart⟩
      rw [Location.line_advance]
      exact Nat.le_add_right _ _

/-- In a scan without errors the block markers of a line are the same. -/
theorem eq_of_isMarker {source : String} {o : ScanOptions}
    (faultless : (ofString source o).errors = []) {t u : Token}
    (ht : t ∈ (ofString source o).tokens) (hu : u ∈ (ofString source o).tokens)
    (marker : t.isMarker) (marker' : u.isMarker) (line : t.location.line = u.location.line) :
    t = u := by
  rw [errors_ofString, eventsFrom, List.flatMap_append, List.append_eq_nil_iff] at faultless
  obtain ⟨later, apart⟩ := markers_pieceEvents
    (fun p (hp : p ∈ Piece.split source.toList) => Piece.exists_stands_of_mem_split hp) faultless.2
  have apart :
      (markers o.keepComments (eventsFrom o {} .start (Piece.split source.toList))).Pairwise
          SameOnLine :=
    (markers_eventsFrom later apart).2
  exact List.Pairwise.forall_of_forall (fun _ _ _ => rfl) apart (List.mem_filter.2 ⟨ht, marker⟩)
    (List.mem_filter.2 ⟨hu, marker'⟩) line

end markers

end Scan

end PasoFrontEnd
