import PasoFrontEnd.Proofs.Explorer.Session
import PasoFrontEnd.Proofs.Grammar.Editing
import PasoFrontEnd.Proofs.Grammar.Indentation
import PasoFrontEnd.Proofs.Grammar.Viability
import PasoFrontEnd.Proofs.Scan.OneLine

/-!
The way to the first error. It leads to the line of the error, since from every error on there is a
token on its line. A token that the grammar refuses it finds by its place, so block markers at that
place are found instead.
-/

namespace PasoFrontEnd

theorem Location.exists_earliest? {locs : List Location} (nonempty : locs ≠ []) :
    ∃ loc ∈ locs, earliest? locs = some loc ∧ ∀ other ∈ locs, loc ≤ other := by
  induction locs with
  | nil => contradiction
  | cons first rest ih =>
      by_cases single : rest = []
      · subst single
        exact ⟨first, List.mem_singleton_self _, rfl, by simp⟩
      obtain ⟨loc, mem, hrest, least⟩ := ih single
      rw [earliest?, hrest]
      by_cases le : first ≤ loc
      · exact ⟨first, List.mem_cons_self, if_pos le,
          List.forall_mem_cons.2 ⟨le_refl _, fun other hother => le_trans le (least other hother)⟩⟩
      · exact ⟨loc, List.mem_cons_of_mem _ mem, if_neg le,
          List.forall_mem_cons.2 ⟨le_of_lt (not_le.1 le), least⟩⟩

/-- Keeps these places, and moves every other one on by a column. -/
def Edit.keeping (places : List Location) : Edit where
  place loc := if loc ∈ places then loc else loc.next ' '

theorem Edit.map_token_keeping {places : List Location} {ts : List Token}
    (kept : ∀ t ∈ ts, t.location ∈ places) : ts.map (keeping places).token = ts := by
  refine (List.map_congr_left fun t ht => ?_).trans (List.map_id ts)
  have place : (keeping places).place t.location = t.location := if_pos (kept t ht)
  rw [token, place]
  split <;> rfl

namespace Grammar

variable {tokens : List Token} {e : SyntaxError}

/-- A syntax error has the place of a token: where the tokens keep their places, it keeps its
own. -/
theorem exists_token_of_parse_error (ended : Ended (tokens.filter (·.kind ≠ .comment)))
    (refused : parse tokens = .error e) : ∃ t ∈ tokens, t.location = e.location := by
  let f := Edit.keeping (tokens.map Token.location)
  have same : f.syntaxError e = e := by
    have edited : parse (List.map f.token _) = f.outcome (parse _) := parse_map_token ended
    rw [Edit.map_token_keeping fun t ht => List.mem_map_of_mem (List.mem_of_mem_filter ht),
      parse_withoutComments, refused] at edited
    exact (Except.error.inj edited).symm
  by_contra nowhere
  have moved : f.place e.location = e.location := congrArg SyntaxError.location same
  have outside : e.location ∉ tokens.map Token.location := by simpa using nowhere
  exact absurd ((if_neg outside).symm.trans moved).symm (ne_of_lt (Location.lt_next _ _))

theorem found_mem {expected : List Token.Kind} {found : Token}
    (ended : Ended (tokens.filter (·.kind ≠ .comment))) (refused : parse tokens = .error e)
    (cause : e.cause = .unexpectedToken expected found) :
    found ∈ tokens ∧ e.location = found.location := by
  rw [← parse_withoutComments] at refused
  obtain ⟨s', hrun⟩ := parse_eq_error_iff.1 refused
  obtain ⟨hnext, place, front, hinput, -⟩ := statements_interrupts (statement_sound maxNesting)
    (statement_keepsTo maxNesting) hrun found (by simp [SyntaxError.found?, cause])
  obtain ⟨us, hs'⟩ := s'.input_eq_next_cons
  rw [input_ofTokens ended, hs', hnext] at hinput
  have mem : found ∈ tokens.filter (·.kind ≠ .comment) :=
    hinput ▸ List.mem_append_right _ List.mem_cons_self
  exact ⟨List.mem_of_mem_filter mem, place⟩

end Grammar

namespace Explorer

open Screen

theorem mem_eraseRepsBy_loop {a b : Nat} {as acc : List Nat} :
    b ∈ List.eraseRepsBy.loop (· == ·) a as acc ↔ b ∈ a :: as ∨ b ∈ acc := by
  induction as generalizing a acc with
  | nil => simp [List.eraseRepsBy.loop, or_comm]
  | cons c as ih =>
      rw [List.eraseRepsBy.loop]
      cases repeated : a == c with
      | true =>
          obtain rfl := beq_iff_eq.1 repeated
          simp [ih]
      | false =>
          simp only [ih, List.mem_cons]
          tauto

theorem mem_eraseReps {a : Nat} {as : List Nat} : a ∈ as.eraseReps ↔ a ∈ as := by
  cases as with
  | nil => rfl
  | cons b as =>
      rw [List.eraseReps, List.eraseRepsBy, mem_eraseRepsBy_loop]
      simp

theorem mem_errorLines {e : Explorer} {line : Nat} :
    line ∈ e.errorLines ↔ ∃ loc ∈ e.errorLocations, loc.line = line := by
  rw [errorLines, mem_eraseReps, List.mem_mergeSort, List.mem_map]

/-- The scan or the parse reports an error at this place. -/
def ErrorAt (source : String) (o : ScanOptions) (loc : Location) : Prop :=
  (∃ e ∈ (Scan.ofString source o).errors, e.location = loc) ∨
    ∃ e, parse (Scan.ofString source o).tokens = .error e ∧ e.location = loc

variable {source : String} {o : ScanOptions} {loc : Location}

theorem syntaxError?_eq_some_iff {err : SyntaxError} :
    (ofString source o).syntaxError? = some err ↔
    parse (Scan.ofString source o).tokens = .error err := by
  have outcome : (ofString source o).outcome = parse (Scan.ofString source o).tokens := rfl
  rw [syntaxError?, outcome]
  cases parse (Scan.ofString source o).tokens <;> simp

theorem mem_errorLocations : loc ∈ (ofString source o).errorLocations ↔ ErrorAt source o loc := by
  rw [errorLocations, List.mem_append, Option.mem_toList, Option.map_eq_some_iff, List.mem_map,
    ErrorAt, or_comm]
  simp only [syntaxError?_eq_some_iff]
  rfl

/-- From every error on there is a token on its line. -/
theorem ErrorAt.exists_token (h : ErrorAt source o loc) :
    ∃ t ∈ (Scan.ofString source o).tokens, loc ≤ t.location ∧ t.location.line = loc.line := by
  obtain ⟨e, he, rfl⟩ | ⟨e, refused, rfl⟩ := h
  · exact Scan.exists_token_of_mem_errors he
  · obtain ⟨t, ht, place⟩ :=
      Grammar.exists_token_of_parse_error (Grammar.ended_ofString source o) refused
    exact ⟨t, ht, ge_of_eq place, congrArg Location.line place⟩

/-- The first token that is not in front of a place. -/
structure FirstFrom (loc : Location) (tokens front : List Token) (t : Token) (back : List Token) :
    Prop where
  whole : tokens = front ++ t :: back
  above : ∀ u ∈ front, u.location < loc
  below : loc ≤ t.location

theorem exists_firstFrom {tokens : List Token} {t : Token} (ht : t ∈ tokens)
    (later : loc ≤ t.location) :
    ∃ front first back, FirstFrom loc tokens front first back := by
  have found : (tokens.find? fun t => loc ≤ t.location).isSome := by
    simpa using ⟨t, ht, later⟩
  obtain ⟨first, hfirst⟩ := Option.isSome_iff_exists.1 found
  obtain ⟨below, front, back, whole, above⟩ := List.find?_eq_some_iff_append.1 hfirst
  exact ⟨front, first, back, whole, fun u hu => Location.not_le.1 (by simpa using above u hu),
    by simpa using below⟩

namespace FirstFrom

variable {tokens front back : List Token} {t u : Token}

theorem mem_of_le (h : FirstFrom loc tokens front t back) (hu : u ∈ tokens)
    (later : loc ≤ u.location) :
    u ∈ t :: back := by
  obtain hu | hu := List.mem_append.1 (h.whole ▸ hu)
  · exact absurd later (Location.not_le.2 (h.above u hu))
  · exact hu

theorem pairwise (h : FirstFrom loc tokens front t back)
    (ordered : tokens.Pairwise Token.Precedes) :
    (t :: back).Pairwise Token.Precedes :=
  (List.pairwise_append.1 (h.whole ▸ ordered)).2.1

/-- Up to a token at the place there are only block markers at the place. -/
theorem exists_markers {found : Token} (h : FirstFrom found.location tokens front t back)
    (ordered : tokens.Pairwise Token.Precedes) (mem : found ∈ tokens) :
    ∃ markers rest, t :: back = markers ++ found :: rest ∧ found ∉ markers ∧
      ∀ u ∈ markers, u.isMarker ∧ u.location = found.location := by
  obtain ⟨markers, rest, hback, first⟩ := List.eq_append_cons_of_mem (h.mem_of_le mem (le_refl _))
  have toCome := h.pairwise ordered
  refine ⟨markers, rest, hback, first, fun u hu => ?_⟩
  have onward : found.location ≤ u.location :=
    le_trans h.below (Token.le_of_mem_cons toCome (hback ▸ List.mem_append_left _ hu))
  rw [hback] at toCome
  have precedes : u.Precedes found :=
    (List.pairwise_append.1 toCome).2.2 u hu found List.mem_cons_self
  have place := Location.le_antisymm precedes.1 onward
  exact ⟨precedes.isMarker place, place⟩

/-- The first token that is not in front of an error is on its line: there is one on it, and none
that is not in front of the error stands in front of the first. -/
theorem line_eq (h : FirstFrom loc (Scan.ofString source o).tokens front t back)
    (reported : ErrorAt source o loc) : t.location.line = loc.line := by
  obtain ⟨u, hu, later, onLine⟩ := reported.exists_token
  have upTo : t.location ≤ u.location :=
    Token.le_of_mem_cons (h.pairwise (Scan.inOrder_ofString source o).tokens) (h.mem_of_le hu later)
  have below := h.below
  change (_ : Nat) < _ ∨ _ at below upTo
  omega

/-- A jump to the first error selects the first token that is not in front of it. -/
theorem jumpToError_selected {e : Explorer} (h : FirstFrom loc e.tokens front t back)
    (first : Location.earliest? e.errorLocations = some loc) :
    e.jumpToError.selected = front.length ∧ e.jumpToError.focus = .tokens := by
  have none : front.findIdx? (fun t => loc ≤ t.location) = none :=
    List.findIdx?_eq_none_iff.2 fun u hu => by simpa using Location.not_le.2 (h.above u hu)
  have index : e.tokens.findIdx? (fun t => loc ≤ t.location) = some front.length := by
    rw [h.whole, List.findIdx?_append, none, List.findIdx?_cons, if_pos (by simpa using h.below)]
    simp
  have inside : front.length ≤ e.tokens.length - 1 := by
    rw [h.whole, List.length_append, List.length_cons]
    omega
  rw [jumpToError, first]
  dsimp only
  rw [index]
  exact ⟨Nat.min_eq_left inside, rfl⟩

end FirstFrom

/-- Wherever a session has come to, the key for it leads to the first error, to the first token that
is not in front of it. -/
theorem exists_jump (faulty : ∃ loc, ErrorAt source o loc) {e : Explorer}
    (same : Continues (ofString source o) e) :
    ∃ loc, ErrorAt source o loc ∧ (∀ other, ErrorAt source o other → loc ≤ other) ∧
      ∃ front t back, FirstFrom loc (Scan.ofString source o).tokens front t back ∧
        (e.press (.char 'e')).selected = front.length ∧ (e.press (.char 'e')).focus = .tokens := by
  have places (loc : Location) : loc ∈ e.errorLocations ↔ ErrorAt source o loc := by
    rw [same.errorLocations, mem_errorLocations]
  obtain ⟨somewhere, faulty⟩ := faulty
  obtain ⟨loc, reported, earliest, least⟩ :=
    Location.exists_earliest? (List.ne_nil_of_mem ((places somewhere).2 faulty))
  rw [places] at reported
  obtain ⟨t, ht, later, -⟩ := reported.exists_token
  obtain ⟨front, first, back, h⟩ := exists_firstFrom ht later
  have here : FirstFrom loc e.tokens front first back := same.tokens ▸ h
  exact ⟨loc, reported, fun other hother => least other ((places other).2 hother), front, first,
    back, h, here.jumpToError_selected earliest⟩

/-- Where there is an error, the key for it leads to the line of the first one, from everywhere in a
session: to the first token that is not in front of it. -/
theorem jump_finds_line (faulty : ∃ loc, ErrorAt source o loc) {Canvas : Type} (t : Toolkit Canvas)
    (actions : List Action) :
    let e := ((ofString source o).run t actions).press (.char 'e')
    ∃ loc, ErrorAt source o loc ∧ (∀ other, ErrorAt source o other → loc ≤ other) ∧
      (∃ front t back, FirstFrom loc e.tokens front t back ∧ e.selected = front.length) ∧
      e.focus = .tokens ∧ e.currentLine = loc.line ∧ loc.line ∈ e.errorLines := by
  intro e
  have same : Continues (ofString source o) e := (run_continues _ t _).trans (press_continues _ _)
  obtain ⟨loc, reported, least, front, first, back, h, selected, focus⟩ :=
    exists_jump faulty (run_continues (ofString source o) t actions)
  have here : FirstFrom loc e.tokens front first back := same.tokens ▸ h
  have current : e.tokens[e.selected]? = some first := by
    rw [here.whole, selected]
    simp
  refine ⟨loc, reported, least, ⟨front, first, back, here, selected⟩, focus, ?_, ?_⟩
  · rw [currentLine, current]
    exact h.line_eq reported
  · exact mem_errorLines.2 ⟨loc, same.errorLocations ▸ mem_errorLocations.2 reported, rfl⟩

/-- The first error is a character that begins no token. -/
theorem jump_finds_line_rejected :
    let e := ((ofString "a = $ 1\nb 2" {}).run Grid.toolkit
      [.press .endKey, .draw 20 5]).press (.char 'e')
    ErrorAt "a = $ 1\nb 2" {} ⟨1, 5⟩ ∧ e.focus = .tokens ∧ e.currentLine = 1 ∧ 1 ∈ e.errorLines ∧
      e.tokens[e.selected]? = some ⟨.integer, "1", ⟨1, 7⟩⟩ := by
  intro e
  have rejected : ErrorAt "a = $ 1\nb 2" {} ⟨1, 5⟩ :=
    .inl ⟨⟨.invalidCharacter '$', ⟨1, 5⟩⟩, by decide +kernel, rfl⟩
  obtain ⟨loc, -, -, -, focus, line, listed⟩ :=
    jump_finds_line ⟨_, rejected⟩ Grid.toolkit [.press .endKey, .draw 20 5]
  have current : e.currentLine = 1 := by decide +kernel
  rw [← line] at listed
  exact ⟨rejected, focus, current, current ▸ listed, by decide +kernel⟩

/-- Where the only error is a refused token, the key for it selects that token, or the first of the
block markers that stand in front of it at its place. -/
theorem jump_finds_place (faultless : (Scan.ofString source o).errors = []) {err : SyntaxError}
    (refused : parse (Scan.ofString source o).tokens = .error err) {expected : List Token.Kind}
    {found : Token} (cause : err.cause = .unexpectedToken expected found) {Canvas : Type}
    (t : Toolkit Canvas) (actions : List Action) :
    let e := ((ofString source o).run t actions).press (.char 'e')
    ∃ front markers back, e.tokens = front ++ (markers ++ found :: back) ∧
      e.selected = front.length ∧ e.focus = .tokens ∧ (∀ t ∈ front, t.location < found.location) ∧
      (∀ t ∈ markers, t.isMarker ∧ t.location = found.location) ∧ (found.isMarker → markers = []) ∧
      (e.tokens[e.selected]? = some found ↔ markers = []) := by
  intro e
  have same : Continues (ofString source o) e := (run_continues _ t _).trans (press_continues _ _)
  obtain ⟨mem, place⟩ := Grammar.found_mem (Grammar.ended_ofString source o) refused cause
  obtain ⟨loc, reported, -, front, first, rest, h, selected, focus⟩ :=
    exists_jump ⟨_, .inr ⟨err, refused, rfl⟩⟩ (run_continues (ofString source o) t actions)
  obtain rfl : loc = found.location := by
    obtain ⟨e, he, -⟩ | ⟨err', refused', rfl⟩ := reported
    · simp [faultless] at he
    · rw [refused] at refused'
      cases refused'
      exact place
  obtain ⟨markers, back, hrest, notMarker, marked⟩ :=
    h.exists_markers (Scan.inOrder_ofString source o).tokens mem
  have stream : (Scan.ofString source o).tokens = front ++ (markers ++ found :: back) :=
    hrest ▸ h.whole
  have tokens : e.tokens = front ++ (markers ++ found :: back) := same.tokens.trans stream
  have alone (marker : found.isMarker) : markers = [] := by
    refine List.eq_nil_iff_forall_not_mem.2 fun u hu => notMarker ?_
    have same : u = found :=
      Scan.eq_of_isMarker faultless (by simp [stream, hu]) mem (marked u hu).1 marker
      (congrArg Location.line (marked u hu).2)
    exact same ▸ hu
  refine ⟨front, markers, back, tokens, selected, focus, h.above, marked, alone, ?_⟩
  rw [tokens, selected, List.getElem?_append_right (Nat.le_refl _), Nat.sub_self]
  cases markers with
  | nil => simp
  | cons u markers =>
      rw [List.mem_cons, not_or] at notMarker
      simpa using Ne.symm notMarker.1

theorem jump_finds_place_withoutMarkers :
    let e := ((ofString "a = 1\nb 2\n" {}).run Grid.toolkit
      [.press .down, .draw 80 24]).press (.char 'e')
    ∃ front back, e.tokens = front ++ ⟨.integer, "2", ⟨2, 3⟩⟩ :: back ∧ e.selected = front.length ∧
      ∀ t ∈ front, t.location < ⟨2, 3⟩ := by
  intro e
  have refused : (ofString "a = 1\nb 2\n" {}).syntaxError? =
      some ⟨.unexpectedToken [.symbol .assign] ⟨.integer, "2", ⟨2, 3⟩⟩, ⟨2, 3⟩⟩ := by
    decide +kernel
  obtain ⟨front, markers, back, tokens, selected, -, above, -, -, found⟩ :=
    jump_finds_place (by decide +kernel) (syntaxError?_eq_some_iff.1 refused) rfl
      Grid.toolkit [.press .down, .draw 80 24]
  obtain rfl := found.1 (by decide +kernel)
  exact ⟨front, back, tokens, selected, above⟩

/-- The body of a branch begins with a number, which no statement does: the marker of the block is
selected in its place. -/
theorem jump_misses_token :
    ¬ ∀ (source : String) (o : ScanOptions) (err : SyntaxError) (expected : List Token.Kind)
      (found : Token) (actions : List Action), (Scan.ofString source o).errors = [] →
      parse (Scan.ofString source o).tokens = .error err →
        err.cause = .unexpectedToken expected found →
      let e := ((ofString source o).run Grid.toolkit actions).press (.char 'e')
      e.tokens[e.selected]? = some found := by
  intro every
  have refused : (ofString "si (a)\n  2\n" {}).syntaxError? =
      some ⟨.unexpectedToken Grammar.statementStart ⟨.integer, "2", ⟨2, 3⟩⟩, ⟨2, 3⟩⟩ := by
    decide +kernel
  have selected := every "si (a)\n  2\n" {} _ _ _ [] (by decide +kernel)
    (syntaxError?_eq_some_iff.1 refused) rfl
  revert selected
  decide +kernel

end Explorer

end PasoFrontEnd
