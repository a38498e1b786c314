import PasoFrontEnd.Proofs.Layout.Changes
import PasoFrontEnd.Proofs.Layout.LineWidth

/-!
The tokens of a scan follow the lines of its text. The open blocks have the widths of the lines that
began them, and the first token on a line that holds code finds as the width of the innermost open
block the width of its line.
-/

namespace PasoFrontEnd

/-- Markers of blocks. -/
def Token.IsMarker (t : Token) : Prop := t.kind = .indent ∨ t.kind = .dedent

/-- Tokens that are neither comments nor structure. -/
def Token.IsCode (t : Token) : Prop :=
  t.kind ≠ .comment ∧ t.kind ≠ .newline ∧ t.kind ≠ .indent ∧ t.kind ≠ .dedent ∧ t.kind ≠ .eof

/-- Only block markers stand in front of the token on its line. -/
def FirstOnLine (stream : List Token) (t : Token) : Prop :=
  ∃ front back, stream = front ++ t :: back ∧
    ∀ u ∈ front, u.location.line = t.location.line → u.IsMarker

/-- The tokens follow the lines that they stand on, inside open blocks of the given widths,
innermost first. At the beginning of a line a block can begin, if the line is wider than the
innermost block, or blocks can end; a token of code that is the first on its line has the predicate,
and its line has the width of the innermost block. Once the rest of the tokens only closes blocks
nothing more is said. -/
inductive Laid (first : Token → Prop) (width : Nat → Nat) :
    (atBeginning : Bool) → List Nat → List Token → Prop
  | newline {fresh levels t ts} (kind : t.kind = .newline)
      (more : Laid first width true levels ts) :
      Laid first width fresh levels (t :: ts)
  | comment {fresh levels t ts} (kind : t.kind = .comment)
      (more : Laid first width fresh levels ts) :
      Laid first width fresh levels (t :: ts)
  | opened {levels t ts} (kind : t.kind = .indent) (wider : levels.headD 0 < width t.location.line)
      (more : Laid first width true (width t.location.line :: levels) ts) :
      Laid first width true levels (t :: ts)
  | closed {level levels t ts} (kind : t.kind = .dedent) (more : Laid first width true levels ts) :
      Laid first width true (level :: levels) (t :: ts)
  | code {fresh levels t ts} (code : t.IsCode)
      (head : fresh = true → first t ∧ width t.location.line = levels.headD 0)
      (more : Laid first width false levels ts) :
      Laid first width fresh levels (t :: ts)
  | closing {fresh levels ts} (closing : ∀ t ∈ ts, t.kind = .dedent ∨ t.kind = .eof) :
      Laid first width fresh levels ts

/-- No token of code comes before the end of the line. -/
inductive Piece.NoCode : List Piece → Prop
  | nil : NoCode []
  | newline {ps} : NoCode (.newline :: ps)
  | comment {text ps} : NoCode (.comment text :: ps)
  | blank {c ps} (more : NoCode ps) : NoCode (.blank c :: ps)

theorem Piece.noCode_of_dropWhile {ps : List Piece} (h : NoCode (ps.dropWhile isGap)) :
    NoCode ps := by
  induction ps with
  | nil => exact .nil
  | cons p ps ih =>
      cases hp : p.isGap with
      | true =>
          rw [List.dropWhile_cons_of_pos hp] at h
          cases p <;> first | exact .blank (ih h) | contradiction
      | false =>
          rw [List.dropWhile_cons_of_neg (by simp [hp])] at h
          exact h

namespace Layout

/-- A line that takes no part in the layout holds no code, and neither does the last line if it
counts with width 0 whatever its indentation. -/
theorem noCode_of_lineWidth? (tabWidth : Nat) (line : List Piece) :
    match lineWidth? tabWidth line with
    | none => Piece.NoCode line
    | some w => w = width tabWidth (indentation line) ∨ w = 0 ∧ Piece.NoCode line := by
  cases h : lineWidth? tabWidth line with
  | none =>
      refine Piece.noCode_of_dropWhile ?_
      unfold lineWidth? countedWidth? at h
      split at h
      case h_2 hline => exact hline ▸ .newline
      case h_3 hline => exact hline ▸ .blank .newline
      case h_4 hline => exact hline ▸ .comment
      all_goals contradiction
  | some w =>
      unfold lineWidth? countedWidth? at h
      split at h
      case h_1 hline =>
        cases h
        exact .inr ⟨rfl, Piece.noCode_of_dropWhile (hline ▸ .nil)⟩
      case h_4 hline =>
        split at h
        · cases h
          exact .inr ⟨rfl, Piece.noCode_of_dropWhile (hline ▸ .comment)⟩
        · contradiction
      case h_5 =>
        cases h
        exact .inl rfl
      all_goals contradiction

end Layout

theorem Location.line_behind (text : List Char) : (behind text).line = 1 + text.count '\n' := rfl

namespace Scan

variable {first : Token → Prop} {width : Nat → Nat} {keep : Bool} {ts : List Token}

/-- The changes that a line makes, in the tokens that mark them. -/
theorem laid_enter {l : Layout} {w : Nat} {loc : Location}
    (opens : l.current < w → width loc.line = w) (aligned : l.current = l.top)
    (more : Laid first width true (l.enter w).2.levels ts) :
    Laid first width true l.levels
      (((l.enter w).1.map (Event.layout · loc)).flatMap (Event.tokens keep) ++ ts) := by
  refine Layout.enter_induction
    (motive := fun levels changes => Laid first width true levels
      ((changes.map (Event.layout · loc)).flatMap (Event.tokens keep) ++ ts))
    (fun wider more => ?_) (.closed rfl) (fun more => more) more
  have hw := opens wider
  refine .opened rfl ?_ (hw.symm ▸ more)
  change l.top < width loc.line
  rw [hw, ← aligned]
  exact wider

/-- A scan in the middle of its text: the tokens in front of the cursor and the events behind it. -/
structure Standing (o : ScanOptions) (source : List Char) (stream front : List Token)
    (before cs : List Char) (events : List Event) : Prop where
  whole : before ++ cs = source
  tokens : front ++ events.flatMap (Event.tokens o.keepComments) = stream
  above : ∀ t ∈ front, t.location.line ≤ (Location.behind before).line
  consistent : ∀ w loc, Event.layout (.misaligned w) loc ∉ events

variable {o : ScanOptions} {source before cs rest : List Char} {stream front : List Token}
  {events : List Event} {l : Layout}

theorem Standing.piece {p : Piece} (h : Standing o source stream front before (p.chars ++ rest)
      (.piece p (.behind before) :: events)) :
    Standing o source stream
      (front ++ Event.tokens o.keepComments (.piece p (.behind before))) (before ++ p.chars) rest
      events where
  whole := by rw [List.append_assoc, h.whole]
  tokens := by rw [List.append_assoc, ← h.tokens, List.flatMap_cons]
  above := by
    intro t ht
    rw [Location.line_behind, List.count_append]
    obtain ht | ht := List.mem_append.1 ht
    · have := h.above t ht
      rw [Location.line_behind] at this
      omega
    · simp only [Event.tokens] at ht
      split at ht
      · obtain rfl := List.mem_singleton.1 ht
        exact Nat.le_trans (Nat.le_of_eq (Location.line_behind before)) (by omega)
      · contradiction
  consistent w loc hmem := h.consistent w loc (List.mem_cons_of_mem _ hmem)

theorem isMarker_of_mem_changes {changes : List Layout.Change} {loc : Location} {t : Token}
    (h : t ∈ (changes.map (Event.layout · loc)).flatMap (Event.tokens keep)) :
    t.IsMarker ∧ t.location = loc := by
  obtain ⟨event, hevent, ht⟩ := List.mem_flatMap.1 h
  obtain ⟨change, -, rfl⟩ := List.mem_map.1 hevent
  cases change with
  | opened _ =>
      obtain rfl := List.mem_singleton.1 ht
      exact ⟨.inl rfl, rfl⟩
  | closed _ =>
      obtain rfl := List.mem_singleton.1 ht
      exact ⟨.inr rfl, rfl⟩
  | misaligned _ => contradiction

theorem Standing.changes {changes : List Layout.Change} {loc : Location}
    (hloc : loc.line = (Location.behind before).line)
    (h : Standing o source stream front before cs (changes.map (Event.layout · loc) ++ events)) :
    Standing o source stream
      (front ++ (changes.map (Event.layout · loc)).flatMap (Event.tokens o.keepComments)) before cs
      events where
  whole := h.whole
  tokens := by rw [List.append_assoc, ← h.tokens, List.flatMap_append]
  above := by
    intro t ht
    obtain ht | ht := List.mem_append.1 ht
    · exact h.above t ht
    · exact Nat.le_of_eq ((isMarker_of_mem_changes ht).2 ▸ hloc)
  consistent w loc hmem := h.consistent w loc (List.mem_append_right _ hmem)

/-- The beginning of a line as far as its first token of code: either none comes, or the line has
the width of the innermost block and nothing but markers stands on it so far. -/
def Beginning (width : Nat → Nat) (front : List Token) (before : List Char) (l : Layout)
    (ps : List Piece) : Prop :=
  Piece.NoCode ps ∨ width (Location.behind before).line = l.top ∧
    ∀ t ∈ front, t.location.line = (Location.behind before).line → t.IsMarker

theorem line_indentation (before cs : List Char) :
    ((Location.behind before).advance (Layout.indentation (Piece.split cs))).line =
      (Location.behind before).line := by
  have sameLine : '\n' ∉ cs.takeWhile Text.isGap := fun h =>
    absurd (List.all_eq_true.1 List.all_takeWhile _ h) (by decide)
  rw [Piece.split_takeWhile_isGap, ← Location.behind_append, Location.line_behind,
    List.count_append, List.count_eq_zero_of_not_mem sameLine]
  rfl

theorem laid_ended {fresh : Bool} (levels : List Nat) (loc : Location) :
    Laid first width fresh levels
      ([Event.ended levels.length loc].flatMap (Event.tokens keep)) := by
  refine .closing fun t ht => ?_
  simp only [List.flatMap_cons, List.flatMap_nil, List.append_nil, Event.tokens, List.mem_append,
    List.mem_replicate, List.mem_singleton] at ht
  obtain ⟨-, rfl⟩ | rfl := ht
  · exact .inl rfl
  · exact .inr rfl

/-- Entering a line begins it, in the tokens too. -/
theorem laid_line {cs : List Char}
    (narrow : ∀ line, Layout.lineWidth o.tabWidth source line < Word.size)
    (head : before = [] ∨ ∃ text, before = text ++ ['\n'])
    (above : ∀ t ∈ front, t.location.line < (Location.behind before).line)
    (aligned : l.current = l.top)
    (h : Standing o source stream front before cs
      (lineEvents o l (.behind before) (Piece.split cs) ++
        pieceEvents o (l.enterLine o.tabWidth (Piece.split cs)).2 (.behind before)
          (Piece.split cs)))
    (more : ∀ {front l},
      Standing o source stream front before cs (pieceEvents o l (.behind before) (Piece.split cs)) →
      l.current = l.top →
      Beginning (Layout.lineWidth o.tabWidth source) front before l (Piece.split cs) →
      Laid (FirstOnLine stream) (Layout.lineWidth o.tabWidth source) true l.levels
        ((pieceEvents o l (.behind before) (Piece.split cs)).flatMap (Event.tokens o.keepComments)))
          :
    Laid (FirstOnLine stream) (Layout.lineWidth o.tabWidth source) true l.levels
      ((lineEvents o l (.behind before) (Piece.split cs) ++
        pieceEvents o (l.enterLine o.tabWidth (Piece.split cs)).2 (.behind before)
          (Piece.split cs)).flatMap (Event.tokens o.keepComments)) := by
  have measured := Layout.noCode_of_lineWidth? o.tabWidth (Piece.split cs)
  have hloc := line_indentation before cs
  have hwidth := Layout.width_indentation h.whole head (narrow _)
  unfold lineEvents Layout.enterLine at *
  rw [List.flatMap_append]
  cases hw : Layout.lineWidth? o.tabWidth (Piece.split cs) with
  | none =>
      simp only [hw] at h measured ⊢
      exact more h aligned (.inl measured)
  | some w =>
      simp only [hw] at h measured ⊢
      have entered := h.changes hloc
      have consistent : Layout.Change.misaligned w ∉ (l.enter w).1 := fun hmem =>
        h.consistent w _ (List.mem_append_left _ (List.mem_map_of_mem hmem))
      have htop := Layout.enter_top aligned consistent
      have hcurrent := (Layout.enter_current l w).trans htop.symm
      refine laid_enter (fun wider => ?_) aligned (more entered hcurrent ?_)
      -- a line that opens a block is measured in full: only the end of the input counts as narrower
      · obtain measured | ⟨hzero, -⟩ := measured
        · rw [hloc, ← hwidth, measured]
        · omega
      · obtain measured | ⟨-, noCode⟩ := measured
        · refine .inr ⟨by rw [← hwidth, htop, measured], fun t ht hline => ?_⟩
          obtain ht | ht := List.mem_append.1 ht
          · exact absurd hline (Nat.ne_of_lt (above t ht))
          · exact (isMarker_of_mem_changes ht).1
        · exact .inl noCode

/-- A character that is no code leaves the beginning of a line as it is. -/
theorem Beginning.append {c : Char} {p : Piece} {ps : List Piece} (sameLine : c ≠ '\n')
    (hp : p = .blank c ∨ p = .rejected c) (h : Beginning width front before l (p :: ps)) :
    Beginning width (front ++ []) (before ++ [c]) l ps := by
  have hline : (Location.behind (before ++ [c])).line = (Location.behind before).line := by
    rw [Location.line_behind, List.count_append, List.count_singleton,
      if_neg (by simpa using sameLine)]
    rfl
  rw [Beginning, hline, List.append_nil]
  obtain noCode | standing := h
  · obtain rfl | rfl := hp
    · cases noCode with
      | blank more => exact .inl more
    · cases noCode
  · exact .inr standing

/-- A piece that is no newline stays on its line: the first that is code ends the beginning. -/
theorem laid_piece {p : Piece} {fresh : Bool} (stands : p.Stands rest) (notNewline : p ≠ .newline)
    (h : Standing o source stream front before (p.chars ++ rest)
      (.piece p (.behind before) :: events))
    (beginning : fresh = true → Beginning width front before l (p :: Piece.split rest))
    (more : ∀ {fresh},
      (fresh = true →
        Beginning width (front ++ Event.tokens o.keepComments (.piece p (.behind before)))
        (before ++ p.chars) l (Piece.split rest)) →
      Laid (FirstOnLine stream) width fresh l.levels
        (events.flatMap (Event.tokens o.keepComments))) :
    Laid (FirstOnLine stream) width fresh l.levels
      ((Event.piece p (.behind before) :: events).flatMap (Event.tokens o.keepComments)) := by
  have tokens := h.tokens
  rw [List.flatMap_cons] at tokens ⊢
  have code {kind : Token.Kind} {lexeme : String}
      (hcode : Token.IsCode ⟨kind, lexeme, .behind before⟩)
      (hstream : front ++ ⟨kind, lexeme, .behind before⟩ ::
        events.flatMap (Event.tokens o.keepComments) = stream)
      (first : ¬ Piece.NoCode (p :: Piece.split rest)) :
      Laid (FirstOnLine stream) width fresh l.levels
        (⟨kind, lexeme, .behind before⟩ :: events.flatMap (Event.tokens o.keepComments)) := by
    refine .code hcode (fun hfresh => ?_) (more (fun hfalse => absurd hfalse Bool.false_ne_true))
    obtain noCode | ⟨hwidth, markers⟩ := beginning hfresh
    · exact absurd noCode first
    · exact ⟨⟨front, _, hstream.symm, markers⟩, hwidth⟩
  cases stands with
  | newline => exact absurd rfl notNewline
  | blank _ sameLine => exact more fun hfresh => (beginning hfresh).append sameLine (.inl rfl)
  | rejected sameLine => exact more fun hfresh => (beginning hfresh).append sameLine (.inr rfl)
  | comment _ ends =>
      have rest : Piece.NoCode (Piece.split rest) := by
        obtain rfl | ⟨text, rfl⟩ := ends
        · rw [Piece.split_nil]
          exact .nil
        · rw [Piece.split_cons]
          exact .newline
      have later : Laid (FirstOnLine stream) width fresh l.levels
          (events.flatMap (Event.tokens o.keepComments)) := more fun _ => .inl rest
      simp only [Event.tokens, Piece.token?]
      generalize o.keepComments = keep at later ⊢
      cases keep with
      | true => exact .comment rfl later
      | false => exact later
  | closed _ => exact code (by simp [Token.IsCode]) tokens fun noCode => by cases noCode
  | unclosed _ => exact code (by simp [Token.IsCode]) tokens fun noCode => by cases noCode
  | lexeme written _ =>
      refine code ?_ tokens fun noCode => by cases noCode
      refine ⟨?_, ?_, ?_, ?_, ?_⟩ <;> rintro rfl <;> contradiction

/-- The tokens from the cursor on follow the lines of the text. -/
theorem laid_pieceEvents (narrow : ∀ line, Layout.lineWidth o.tabWidth source line < Word.size)
    {fresh : Bool} (aligned : l.current = l.top)
    (h : Standing o source stream front before cs
      (pieceEvents o l (.behind before) (Piece.split cs)))
    (beginning : fresh = true →
      Beginning (Layout.lineWidth o.tabWidth source) front before l (Piece.split cs)) :
    Laid (FirstOnLine stream) (Layout.lineWidth o.tabWidth source) fresh l.levels
      ((pieceEvents o l (.behind before) (Piece.split cs)).flatMap
        (Event.tokens o.keepComments)) := by
  induction cs using Piece.text_induction generalizing before front l fresh with
  | nil =>
      rw [Piece.split_nil]
      exact laid_ended _ _
  | @piece p rest stands hsplit ih =>
      rw [hsplit] at h beginning ⊢
      by_cases hp : p = .newline
      · subst hp
        have below := Location.behind_append_singleton before '\n'
        have standing := h.piece
        have line := laid_line narrow (.inr ⟨before, rfl⟩) (fun t ht => ?_) aligned
          (below ▸ standing) fun standing aligned beginning =>
            ih rest (Nat.le_refl _) aligned standing fun _ => beginning
        · rw [below] at line
          exact .newline rfl line
        · rw [below]
          refine Nat.lt_succ_of_le ?_
          obtain ht | ht := List.mem_append.1 ht
          · exact h.above t ht
          · obtain rfl := List.mem_singleton.1 ht
            exact Nat.le_refl _
      · have hevents : pieceEvents o l (.behind before) (p :: Piece.split rest) =
            .piece p (.behind before) ::
              pieceEvents o l (.behind (before ++ p.chars)) (Piece.split rest) := by
          rw [Location.behind_append]
          cases p <;> first | rfl | contradiction
        rw [hevents] at h ⊢
        exact laid_piece stands hp h beginning fun beginning =>
          ih rest (Nat.le_refl _) aligned h.piece beginning

/-- Without an inconsistent dedent the tokens of a scan follow the lines of its text. -/
theorem laid_ofString {source : String} {o : ScanOptions}
    (narrow : ∀ line, Layout.lineWidth o.tabWidth source.toList line < Word.size)
    (consistent : ∀ e ∈ (ofString source o).errors, ∀ w, e.fault ≠ .inconsistentDedent w) :
    Laid (FirstOnLine (ofString source o).tokens) (Layout.lineWidth o.tabWidth source.toList) true
      []
      (ofString source o).tokens := by
  have standing : Standing o source.toList (ofString source o).tokens [] [] source.toList
      (ofString source o).events :=
    { whole := rfl
      tokens := rfl
      above := by simp
      consistent := fun w loc hmem => consistent ⟨.inconsistentDedent w, loc⟩
        (List.mem_flatMap.2 ⟨_, hmem, List.mem_singleton_self _⟩) w rfl }
  exact laid_line (l := {}) narrow (.inl rfl) (by simp) rfl standing
      fun standing aligned beginning =>
    laid_pieceEvents narrow aligned standing fun _ => beginning

end Scan

namespace Laid

variable {first : Token → Prop} {width : Nat → Nat} {fresh : Bool} {levels : List Nat} {t : Token}
  {ts : List Token}

theorem withoutComments (h : Laid first width fresh levels ts) :
    Laid first width fresh levels (ts.filter (·.kind ≠ .comment)) := by
  induction h with
  | newline kind _ ih =>
      rw [List.filter_cons_of_pos (by simp [kind])]
      exact .newline kind ih
  | comment kind _ ih =>
      rw [List.filter_cons_of_neg (by simp [kind])]
      exact ih
  | opened kind wider _ ih =>
      rw [List.filter_cons_of_pos (by simp [kind])]
      exact .opened kind wider ih
  | closed kind _ ih =>
      rw [List.filter_cons_of_pos (by simp [kind])]
      exact .closed kind ih
  | code code head _ ih =>
      rw [List.filter_cons_of_pos (by simpa using code.1)]
      exact .code code head ih
  | closing closing => exact .closing fun t ht => closing t (List.mem_filter.1 ht).1

/-! What is laid behind a token that is known. -/

theorem of_newline (h : Laid first width fresh levels (t :: ts)) (kind : t.kind = .newline) :
    Laid first width true levels ts := by
  cases h with
  | newline _ more => exact more
  | comment other _ | opened other _ _ | closed other _ => simp [kind] at other
  | code code _ _ => exact absurd kind code.2.1
  | closing closing => simp [kind] at closing

theorem of_indent (h : Laid first width fresh levels (t :: ts)) (kind : t.kind = .indent) :
    ∃ w, levels.headD 0 < w ∧ Laid first width true (w :: levels) ts := by
  cases h with
  | opened _ wider more => exact ⟨_, wider, more⟩
  | newline other _ | comment other _ | closed other _ => simp [kind] at other
  | code code _ _ => exact absurd kind code.2.2.1
  | closing closing => simp [kind] at closing

theorem of_dedent {level : Nat} (h : Laid first width fresh (level :: levels) (t :: ts))
    (kind : t.kind = .dedent) : Laid first width true levels ts := by
  cases h with
  | closed _ more => exact more
  | newline other _ | comment other _ | opened other _ _ => simp [kind] at other
  | code code _ _ => exact absurd kind code.2.2.2.1
  | closing closing => exact .closing fun u hu => closing u (List.mem_cons_of_mem _ hu)

theorem of_code (h : Laid first width fresh levels (t :: ts)) (code : t.IsCode) :
    (fresh = true → first t ∧ width t.location.line = levels.headD 0) ∧
      Laid first width false levels ts := by
  cases h with
  | code _ head more => exact ⟨head, more⟩
  | newline kind _ => exact absurd kind code.2.1
  | comment kind _ => exact absurd kind code.1
  | opened kind _ _ => exact absurd kind code.2.2.1
  | closed kind _ => exact absurd kind code.2.2.2.1
  | closing closing =>
      obtain kind | kind := closing t List.mem_cons_self
      · exact absurd kind code.2.2.2.1
      · exact absurd kind code.2.2.2.2

/-- In the middle of a line the end of a block or of the input can only begin the end of the tokens.
-/
theorem of_closing (h : Laid first width false levels (t :: ts))
    (kind : t.kind = .dedent ∨ t.kind = .eof) : Laid first width true levels (t :: ts) := by
  cases h with
  | newline other _ | comment other _ => simp [other] at kind
  | code code _ _ => exact absurd kind (not_or.2 code.2.2.2)
  | closing closing => exact .closing closing

end Laid

end PasoFrontEnd
