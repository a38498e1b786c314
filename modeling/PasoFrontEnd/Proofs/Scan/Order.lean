import Mathlib.Order.Defs.PartialOrder
import PasoFrontEnd.Proofs.Scan.Coverage
import PasoFrontEnd.Proofs.Scan.Nesting

/-!
The order in which a scan puts out tokens and errors. Both follow the text: a token stands in front
of those behind it, or at their place if it is the marker of a block, and what is wrong with the end
of the text is reported last.
-/

namespace PasoFrontEnd

namespace Location

instance : Preorder Location where
  le_refl a := .inr ⟨rfl, Nat.le_refl _⟩
  le_trans a b c h h' := by
    change _ < _ ∨ _ at *
    omega
  lt_iff_le_not_ge a b := by
    change (_ < _ ∨ _) ↔ (_ < _ ∨ _) ∧ ¬ (_ < _ ∨ _)
    omega

theorem not_le {a b : Location} : ¬ a ≤ b ↔ b < a := by
  change ¬ (_ < _ ∨ _) ↔ (_ < _ ∨ _)
  omega

theorem le_antisymm {a b : Location} (h : a ≤ b) (h' : b ≤ a) : a = b := by
  change _ < _ ∨ _ at h h'
  obtain ⟨line, column⟩ := a
  obtain ⟨line', column'⟩ := b
  rw [mk.injEq]
  dsimp only at h h'
  omega

theorem lt_next (loc : Location) (c : Char) : loc < loc.next c := by
  unfold next
  split
  · exact .inl (Nat.lt_succ_self _)
  · exact .inr ⟨rfl, Nat.lt_succ_self _⟩

theorem le_advance (loc : Location) (cs : List Char) : loc ≤ loc.advance cs := by
  induction cs generalizing loc with
  | nil => exact le_refl loc
  | cons c cs ih => exact le_trans (le_of_lt (loc.lt_next c)) (ih (loc.next c))

theorem lt_advance (loc : Location) {cs : List Char} (nonempty : cs ≠ []) :
    loc < loc.advance cs := by
  obtain ⟨c, cs, rfl⟩ := List.exists_cons_of_ne_nil nonempty
  exact lt_of_lt_of_le (loc.lt_next c) ((loc.next c).le_advance cs)

theorem behind_le (text cs : List Char) : behind text ≤ behind (text ++ cs) := by
  rw [behind_append]
  exact le_advance _ cs

theorem behind_lt (text : List Char) {cs : List Char} (nonempty : cs ≠ []) :
    behind text < behind (text ++ cs) := by
  rw [behind_append]
  exact lt_advance _ nonempty

end Location

def Token.isMarker (t : Token) : Bool := t.kind = .indent || t.kind = .dedent

/-- The first token stands in front of the second one, or at its place if it is the marker of a
block. -/
def Token.Precedes (t u : Token) : Prop :=
  t.location ≤ u.location ∧ (t.isMarker = false → t.location < u.location)

theorem Token.le_of_mem_cons {t u : Token} {ts : List Token}
    (ordered : (t :: ts).Pairwise Token.Precedes) (hu : u ∈ t :: ts) : t.location ≤ u.location := by
  obtain rfl | hu := List.mem_cons.1 hu
  · exact le_refl _
  · exact ((List.pairwise_cons.1 ordered).1 u hu).1

/-- Only block markers stand in front of a token at its place. -/
theorem Token.Precedes.isMarker {t u : Token} (h : t.Precedes u) (place : t.location = u.location) :
    t.isMarker := by
  by_contra code
  exact absurd (place ▸ h.2 (by simpa using code)) (lt_irrefl _)

namespace Scan

variable {keep : Bool} {before rest : List Char} {ts : List Token} {es : List LexError}

/-- Scanning step by step: a step puts out at most one token and one error, at the place where it
begins, and takes a segment of the text unless its token is the marker of a block. -/
theorem Covers.step_induction {motive : List Char → List Char → List Token → List LexError → Prop}
    (ended : ∀ before, motive before [] [⟨.eof, "", .behind before⟩] [])
    (step : ∀ {before rest ts es} (segment : List Char) (t? : Option Token) (e? : Option LexError),
      (∀ t ∈ t?, t.location = .behind before ∧ t.kind ≠ .eof ∧
        (t.isMarker = false → segment ≠ [])) →
      (∀ e ∈ e?, e.location = .behind before) → motive (before ++ segment) rest ts es →
      motive before (segment ++ rest) (t?.toList ++ ts) (e?.toList ++ es))
    (h : Covers keep before rest ts es) : motive before rest ts es := by
  have silent {before : List Char} :
      ∀ e ∈ (none : Option LexError), e.location = .behind before := by
    simp
  induction h with
  | newline _ ih => exact step ['\n'] (some _) none (by simp) silent ih
  | @written _ kind text _ _ _ written nonempty _ ih =>
      refine step text (some _) none ?_ silent ih
      have code : kind ≠ .eof := fun ends => by simp [ends, Token.Kind.isWritten] at written
      simp [code, nonempty]
  | @text before body _ _ _ _ _ ih =>
      rw [List.append_assoc] at ih
      have whole :=
        step ('"' :: (body ++ ['"'])) (some ⟨.text, String.ofList body, .behind before⟩) none
        (by simp) silent ih
      simpa using whole
  | @openText before body _ _ _ _ ih =>
      have whole := step ('"' :: body) (some ⟨.text, String.ofList body, .behind before⟩)
        (some ⟨.unterminatedString, .behind before⟩) (by simp) (by simp) ih
      simpa using whole
  | comment _ _ _ _ ih => exact step _ (some _) none (by simp) silent ih
  | leftOut _ _ _ _ ih => exact step _ none none (by simp) silent ih
  | @blank _ c _ _ _ _ _ _ ih => exact step [c] none none (by simp) silent ih
  | @rejected _ c _ _ _ _ ih => exact step [c] none (some _) (by simp) (by simp) ih
  | @marker before _ kind _ _ marker _ _ ih =>
      refine step [] (some ⟨kind, "", .behind before⟩) none ?_ silent (by simpa using ih)
      obtain rfl | rfl := marker <;> simp [Token.isMarker]
  | @misaligned before _ width _ _ _ _ ih =>
      exact step [] none (some ⟨.inconsistentDedent width, .behind before⟩) (by simp) (by simp)
        (by simpa using ih)
  | @openBlocks before depth _ _ _ ih =>
      exact step [] none (some ⟨.unterminatedBlock depth, .behind before⟩) (by simp) (by simp)
        (by simpa using ih)
  | ended => exact ended _

/-- Tokens and errors from one place of a text on, in the order of the text, and the place of its
end. -/
structure InOrder (first last : Location) (ts : List Token) (es : List LexError) : Prop where
  tokens_from : ∀ t ∈ ts, first ≤ t.location
  tokens : ts.Pairwise Token.Precedes
  eof : ∀ t ∈ ts, t.kind = .eof → t.location = last
  errors_from : ∀ e ∈ es, first ≤ e.location
  errors : es.Pairwise (·.location ≤ ·.location)
  errors_to : ∀ e ∈ es, e.location ≤ last

theorem InOrder.step {first next last : Location} {t? : Option Token} {e? : Option LexError}
    (h : InOrder next last ts es) (le : first ≤ next) (inside : next ≤ last)
    (token : ∀ t ∈ t?, t.location = first ∧ t.kind ≠ .eof ∧ (t.isMarker = false → first < next))
    (error : ∀ e ∈ e?, e.location = first) :
    InOrder first last (t?.toList ++ ts) (e?.toList ++ es) where
  tokens_from t ht := by
    obtain ht | ht := List.mem_append.1 ht
    · exact ge_of_eq (token t (Option.mem_toList.1 ht)).1
    · exact le_trans le (h.tokens_from t ht)
  tokens := by
    refine List.pairwise_append.2 ⟨by cases t? <;> simp, h.tokens, fun t ht u hu => ?_⟩
    obtain ⟨place, -, onward⟩ := token t (Option.mem_toList.1 ht)
    have later := h.tokens_from u hu
    exact ⟨place ▸ le_trans le later, fun code => place ▸ lt_of_lt_of_le (onward code) later⟩
  eof t ht ends := by
    obtain ht | ht := List.mem_append.1 ht
    · exact absurd ends (token t (Option.mem_toList.1 ht)).2.1
    · exact h.eof t ht ends
  errors_from e he := by
    obtain he | he := List.mem_append.1 he
    · exact ge_of_eq (error e (Option.mem_toList.1 he))
    · exact le_trans le (h.errors_from e he)
  errors := by
    refine List.pairwise_append.2 ⟨by cases e? <;> simp, h.errors, fun e he e' he' => ?_⟩
    exact error e (Option.mem_toList.1 he) ▸ le_trans le (h.errors_from e' he')
  errors_to e he := by
    obtain he | he := List.mem_append.1 he
    · exact error e (Option.mem_toList.1 he) ▸ le_trans le inside
    · exact h.errors_to e he

theorem Covers.inOrder (h : Covers keep before rest ts es) :
    InOrder (.behind before) (.behind (before ++ rest)) ts es := by
  refine h.step_induction
    (motive := fun before rest ts es => InOrder (.behind before) (.behind (before ++ rest)) ts es)
    (fun before => ?ended) fun segment t? e? token error more => ?step
  case ended =>
    rw [List.append_nil]
    exact ⟨by simp, by simp, by simp, by simp, by simp, by simp⟩
  case step =>
    rw [← List.append_assoc]
    refine more.step (Location.behind_le _ segment) (Location.behind_le _ _) (fun t ht => ?_) error
    obtain ⟨place, code, taken⟩ := token t ht
    exact ⟨place, code, fun unmarked => Location.behind_lt _ (taken unmarked)⟩

theorem inOrder_ofString (source : String) (o : ScanOptions) :
    InOrder (.behind []) (.behind source.toList) (ofString source o).tokens
      (ofString source o).errors :=
  (covers_ofString source o).inOrder

end Scan

/-- Only an open string literal is reported as one. -/
theorem Event.ne_unterminatedString_of_mem_errors {event : Event}
    (closed : ∀ body loc, event ≠ .piece (.quoted body false) loc) {error : LexError}
    (h : error ∈ event.errors) : error.fault ≠ .unterminatedString := by
  cases event with
  | ended depth loc =>
      by_cases outside : depth = 0 <;> simp [Event.errors, outside] at h
      simp [h]
  | layout change loc => cases change <;> simp_all [Event.errors]
  | piece p loc =>
      cases p with
      | quoted body isClosed =>
          cases isClosed with
          | true => contradiction
          | false => exact absurd rfl (closed body loc)
      | rejected c =>
          obtain rfl := List.mem_singleton.1 h
          by_cases negation : c = '!' <;> simp [negation]
      | _ => contradiction

namespace Scan

/-- Errors of a scan: what is wrong with the end of the text comes last, an open string literal in
front of open blocks. -/
inductive EndsLast : List LexError → Prop
  | inner {e es} (inner : e.fault ≠ .unterminatedString ∧ e.fault.isUnterminatedBlock = false)
      (more : EndsLast es) : EndsLast (e :: es)
  | openText {loc es} (ends : es = [] ∨ ∃ depth loc, es = [⟨.unterminatedBlock depth, loc⟩]) :
      EndsLast (⟨.unterminatedString, loc⟩ :: es)
  | ended {es} (ends : es = [] ∨ ∃ depth loc, es = [⟨.unterminatedBlock depth, loc⟩]) : EndsLast es

variable {o : ScanOptions} {l : Layout} {loc : Location}

/-- Events that are no end come before. -/
theorem EndsLast.behind {events more : List Event}
    (inner : ∀ e ∈ events, (∀ depth loc, e ≠ .ended depth loc) ∧
      ∀ body loc, e ≠ .piece (.quoted body false) loc)
    (h : EndsLast (more.flatMap Event.errors)) :
    EndsLast ((events ++ more).flatMap Event.errors) := by
  have inside : ∀ error ∈ events.flatMap Event.errors,
      error.fault ≠ .unterminatedString ∧ error.fault.isUnterminatedBlock = false := by
    intro error herror
    obtain ⟨e, he, herror⟩ := List.mem_flatMap.1 herror
    exact ⟨Event.ne_unterminatedString_of_mem_errors (inner e he).2 herror,
      Event.isUnterminatedBlock_of_mem_errors (inner e he).1 herror⟩
  rw [List.flatMap_append]
  generalize events.flatMap Event.errors = front at inside
  induction front with
  | nil => exact h
  | cons e front ih =>
      rw [List.forall_mem_cons] at inside
      exact .inner inside.1 (ih inside.2)

theorem EndsLast.behind_lineEvents {ps : List Piece} {more : List Event}
    (h : EndsLast (more.flatMap Event.errors)) :
    EndsLast ((lineEvents o l loc ps ++ more).flatMap Event.errors) := by
  refine h.behind fun e he => ?_
  obtain ⟨change, -, rfl⟩ := List.mem_map.1 he
  exact ⟨nofun, nofun⟩

theorem errors_ended (depth : Nat) :
    (Event.ended depth loc).errors = [] ∨
      ∃ depth' loc', (Event.ended depth loc).errors = [⟨.unterminatedBlock depth', loc'⟩] := by
  by_cases outside : depth = 0 <;> simp [Event.errors, outside]

theorem endsLast_pieceEvents (o : ScanOptions) (cs : List Char) (l : Layout) (loc : Location) :
    EndsLast ((pieceEvents o l loc (Piece.split cs)).flatMap Event.errors) := by
  induction cs using Piece.text_induction generalizing l loc with
  | nil =>
      rw [Piece.split_nil, pieceEvents, List.flatMap_singleton]
      exact .ended (errors_ended _)
  | @piece p rest stands hsplit ih =>
      rw [hsplit]
      by_cases newline : p = .newline
      · subst newline
        rw [pieceEvents_newline, eventsFrom]
        exact @EndsLast.behind [.piece .newline loc] _ (by simp)
          (.behind_lineEvents (ih rest (Nat.le_refl _) _ _))
      rw [pieceEvents_cons newline]
      by_cases unclosed : ∃ body, p = .quoted body false
      · -- an open literal takes all that is left of the text
        obtain ⟨body, rfl⟩ := unclosed
        obtain rfl : rest = [] := by cases stands; rfl
        rw [Piece.split_nil, pieceEvents, List.flatMap_cons, List.flatMap_singleton]
        exact .openText (errors_ended _)
      · refine @EndsLast.behind [.piece p loc] _ (fun e he => ?_) (ih rest (Nat.le_refl _) _ _)
        obtain rfl := List.mem_singleton.1 he
        exact ⟨nofun, fun body _ same => unclosed ⟨body, (Event.piece.inj same).1⟩⟩

theorem endsLast_ofString (source : String) (o : ScanOptions) :
    EndsLast (ofString source o).errors :=
  .behind_lineEvents (endsLast_pieceEvents o _ _ _)

/-- Behind an open string literal only open blocks are reported, and behind these nothing is. -/
theorem EndsLast.pairwise (h : EndsLast es) :
    es.Pairwise fun e e' => e.fault.isUnterminatedBlock = false ∧
      (e.fault = .unterminatedString → e'.fault.isUnterminatedBlock = true) := by
  induction h with
  | inner inner _ ih =>
      exact List.pairwise_cons.2 ⟨fun _ _ => ⟨inner.2, fun unclosed => absurd unclosed inner.1⟩, ih⟩
  | openText ends | ended ends =>
      obtain rfl | ⟨depth, loc, rfl⟩ := ends <;> simp [LexError.Fault.isUnterminatedBlock]

theorem EndsLast.countP_unterminatedString (h : EndsLast es) :
    es.countP (·.fault = .unterminatedString) ≤ 1 := by
  induction h with
  | inner inner _ ih => simpa [List.countP_cons, inner.1] using ih
  | openText ends | ended ends => obtain rfl | ⟨depth, loc, rfl⟩ := ends <;> simp

theorem EndsLast.countP_unterminatedBlock (h : EndsLast es) :
    es.countP (·.fault.isUnterminatedBlock) ≤ 1 := by
  induction h with
  | inner inner _ ih => simpa [List.countP_cons, inner.2] using ih
  | openText ends | ended ends =>
      obtain rfl | ⟨depth, loc, rfl⟩ := ends <;> simp [LexError.Fault.isUnterminatedBlock]

end Scan

end PasoFrontEnd
