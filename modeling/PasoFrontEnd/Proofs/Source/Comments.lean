import PasoFrontEnd.Batch
import PasoFrontEnd.Proofs.Grammar.Editing
import PasoFrontEnd.Proofs.Grammar.Indentation
import PasoFrontEnd.Proofs.Scan.Modes
import PasoFrontEnd.Proofs.Scan.Places

/-!
Comments never change a program. A scan can leave them out, or they can be taken out of the text
before the scan: the tokens of code, the blocks, the errors and the outcome of the parse are the
same.
-/

namespace PasoFrontEnd

namespace Piece

variable {p : Piece}

/-- All pieces but the comments. -/
def code (ps : List Piece) : List Piece := ps.filter (!·.isComment)

theorem code_cons (h : p.isComment = false) (ps : List Piece) : code (p :: ps) = p :: code ps :=
  List.filter_cons_of_pos (by simp [h])

/-- Without its comments a text has the same other pieces. -/
theorem split_withoutComments (cs : List Char) :
    split (Text.withoutComments cs) = code (split cs) ∧
      Text.reach (Text.withoutComments cs) = Text.reach cs := by
  induction cs using text_induction with
  | nil => exact ⟨split_nil.trans (congrArg code split_nil).symm, rfl⟩
  | @piece p rest stands hsplit ih =>
      obtain ⟨pieces, same⟩ := ih rest (Nat.le_refl _)
      rw [(stands.shape hsplit).withoutComments, hsplit]
      cases hp : p.isComment with
      | true =>
          cases stands with
          | comment sameLine ends =>
              refine ⟨pieces, ?_⟩
              obtain rfl | ⟨more, rfl⟩ := ends <;> exact same
          | _ => contradiction
      | false =>
          have stands' : p.Stands (Text.withoutComments rest) :=
            stands.of_code hp fun ends => by rw [ends]; rfl
          refine ⟨?_, Text.reach_append_congr same⟩
          rw [code_cons hp, ← pieces]
          exact split_congr hsplit stands' same.symm

end Piece

/-- Every return of the text stands directly in front of a newline. -/
def Text.ReturnsPaired (cs : List Char) : Prop :=
  ∀ rest, '\r' :: rest <:+ cs → rest.head? = some '\n'

theorem Text.ReturnsPaired.of_append {a b : List Char} (h : ReturnsPaired (a ++ b)) :
    ReturnsPaired b :=
  fun rest hrest => h rest (hrest.trans (List.suffix_append a b))

namespace Layout

variable {tabWidth : Nat} {gap code cs : List Char}

/-- Without its comments a line begins as it does with them, or ends where its comment began. -/
theorem behind_withoutComments (behind : Text.Behind code) (returns : Text.ReturnsPaired code) :
    Text.Behind (Text.withoutComments code) ∧
      ∀ {gap}, (∀ c ∈ gap, Text.isGap c) →
        lineWidth? tabWidth (Piece.split (gap ++ Text.withoutComments code)) =
          lineWidth? tabWidth (Piece.split (gap ++ code)) := by
  cases behind with
  | ended => exact ⟨.ended, fun _ => rfl⟩
  | newline rest =>
      exact ⟨.newline _, fun hgap =>
        (lineWidth?_newline hgap _).trans (lineWidth?_newline hgap rest).symm⟩
  | returned rest =>
      exact ⟨.returned _, fun hgap =>
        (lineWidth?_return hgap _).trans (lineWidth?_return hgap rest).symm⟩
  | comment rest =>
      change Text.Behind (Text.stripFrom .comment rest) ∧ ∀ {gap}, (∀ c ∈ gap, Text.isGap c) →
        lineWidth? tabWidth (Piece.split (gap ++ Text.stripFrom .comment rest)) = _
      by_cases newline : '\n' ∈ rest
      · obtain ⟨text, below, rfl, sameLine⟩ := List.eq_append_cons_of_mem newline
        rw [Text.stripFrom_append (Text.stays_comment sameLine)]
        refine ⟨.newline _, fun hgap => ?_⟩
        rw [lineWidth?_comment hgap, if_pos newline]
        exact lineWidth?_newline hgap _
      · have stripped := @Text.stripFrom_append .comment rest [] (Text.stays_comment newline)
        rw [List.append_nil] at stripped
        rw [stripped]
        refine ⟨.ended, fun hgap => ?_⟩
        rw [lineWidth?_comment hgap, if_neg newline]
        exact (congrArg _ (congrArg _ (List.append_nil _))).trans (lineWidth?_ended hgap)
  | @code c rest notGap newline comment noReturn =>
      have notReturn {more : List Char} : c = '\r' → more.head? ≠ some '\n' := by
        rintro rfl
        exact absurd (returns rest (List.suffix_refl _)) (noReturn rfl)
      have kept : Text.Mode.code.next c ≠ .comment := by
        rw [Text.Mode.next, if_neg comment]
        split <;> simp
      rw [Text.withoutComments, Text.stripFrom, if_neg kept]
      exact ⟨.code notGap newline comment notReturn, fun hgap =>
        (lineWidth?_code hgap notGap newline comment notReturn).trans
          (lineWidth?_code hgap notGap newline comment noReturn).symm⟩

/-- The comments of a line have no part in its width, unless they hide a return from its newline. -/
theorem lineWidth?_withoutComments (returns : Text.ReturnsPaired cs) :
    lineWidth? tabWidth (Piece.split (Text.withoutComments cs)) =
      lineWidth? tabWidth (Piece.split cs) ∧
      indentation (Piece.split (Text.withoutComments cs)) = indentation (Piece.split cs) := by
  obtain ⟨gap, code, rfl, hgap, behind⟩ := Text.exists_gap_append cs
  obtain ⟨behind', width⟩ := @behind_withoutComments tabWidth _ behind returns.of_append
  have plain : ∀ c ∈ gap, c ≠ '~' ∧ c ≠ '"' := by
    intro c hc
    refine ⟨?_, ?_⟩ <;> rintro rfl <;> exact absurd (hgap _ hc) (by decide)
  have stripped := @Text.stripFrom_append .code gap code (Text.stays_code plain)
  change Text.withoutComments (gap ++ code) = gap ++ Text.withoutComments code at stripped
  rw [stripped, indentation_split hgap behind, indentation_split hgap behind']
  exact ⟨width hgap, rfl⟩

end Layout

def Event.isComment : Event → Bool
  | .piece p _ => p.isComment
  | .layout _ _ | .ended _ _ => false

namespace Scan

/-- The second events are the first without their comments. Newlines and the end of the input may
stand in other columns. -/
inductive Uncommented : List Event → List Event → Prop
  | newline {loc loc' events events'} (line : loc'.line = loc.line)
      (more : Uncommented events events') :
      Uncommented (.piece .newline loc :: events) (.piece .newline loc' :: events')
  | comment {e events events'} (isComment : e.isComment = true)
      (more : Uncommented events events') :
      Uncommented (e :: events) events'
  | same {e events events'} (code : e.isComment = false) (more : Uncommented events events') :
      Uncommented (e :: events) (e :: events')
  | ended {depth loc loc'} (line : loc'.line = loc.line) :
      Uncommented [.ended depth loc] [.ended depth loc']

variable {o : ScanOptions} {l : Layout} {loc loc' : Location} {cs : List Char}

/-- Entering a line does not look at comments. -/
theorem uncommented_line (returns : Text.ReturnsPaired cs)
    (more : ∀ l, Uncommented (pieceEvents o l loc (Piece.split cs))
      (pieceEvents o l loc (Piece.code (Piece.split cs)))) :
    Uncommented (eventsFrom o l loc (Piece.split cs))
      (eventsFrom o l loc (Piece.code (Piece.split cs))) := by
  obtain ⟨width, indentation⟩ := @Layout.lineWidth?_withoutComments o.tabWidth cs returns
  rw [(Piece.split_withoutComments cs).1] at width indentation
  rw [eventsFrom_congr width indentation, eventsFrom, lineEvents]
  generalize l.enterLine o.tabWidth (Piece.split cs) = entered
  induction entered.1 with
  | nil => exact more entered.2
  | cons change changes ih => exact .same rfl ih

theorem uncommented_pieceEvents (returns : Text.ReturnsPaired cs)
    (places : loc' = loc ∨ loc'.line = loc.line ∧ (cs = [] ∨ ∃ more, cs = '\n' :: more)) :
    Uncommented (pieceEvents o l loc (Piece.split cs))
      (pieceEvents o l loc' (Piece.code (Piece.split cs))) := by
  induction cs using Piece.text_induction generalizing l loc loc' with
  | nil =>
      rw [Piece.split_nil]
      exact .ended (places.elim (fun same => same ▸ rfl) And.left)
  | @piece p rest stands hsplit ih =>
      have returns' := returns.of_append
      rw [hsplit]
      by_cases newline : p = .newline
      · subst newline
        have line : loc'.line = loc.line := places.elim (fun same => same ▸ rfl) And.left
        have below : loc'.next '\n' = loc.next '\n' := by simp [Location.next, line]
        rw [Piece.code_cons rfl, pieceEvents_newline, pieceEvents_newline, below]
        exact .newline line
          (uncommented_line returns' fun l => ih rest (Nat.le_refl _) returns' (.inl rfl))
      · obtain rfl : loc' = loc := by
          obtain same | ⟨-, empty | ⟨more, line⟩⟩ := places
          · exact same
          · rw [empty, Piece.split_nil] at hsplit
            contradiction
          · rw [line, Piece.split_cons] at hsplit
            exact absurd (List.cons.inj hsplit).1.symm newline
        rw [pieceEvents_cons newline]
        cases hp : p.isComment with
        | true =>
            refine .comment hp ?_
            cases stands with
            | comment sameLine ends =>
                refine ih rest (Nat.le_refl _) returns' (.inr ⟨?_, ends⟩)
                rw [Location.line_advance, Piece.chars, List.count_cons_of_ne (by decide),
                  List.count_eq_zero.2 sameLine]
                rfl
            | _ => contradiction
        | false =>
            rw [Piece.code_cons hp, pieceEvents_cons newline]
            exact .same hp (ih rest (Nat.le_refl _) returns' (.inl rfl))

theorem uncommented_ofString {source : String} (returns : Text.ReturnsPaired source.toList) :
    Uncommented (eventsFrom o {} .start (Piece.split source.toList))
      (eventsFrom o {} .start (Piece.split (Text.withoutComments source.toList))) := by
  rw [(Piece.split_withoutComments source.toList).1]
  exact uncommented_line returns fun l => uncommented_pieceEvents returns (.inl rfl)

end Scan

/-! Tokens and errors of the events. -/

/-- The same token, or newlines of one line. -/
def Token.Moved (t t' : Token) : Prop :=
  t' = t ∨ t.kind = .newline ∧ ∃ column, t' = { t with location := ⟨t.location.line, column⟩ }

namespace Scan

/-- The same tokens and errors, but newlines, and what stands at the end of the input, may have
other columns. -/
def EndsMoved (tokens tokens' : List Token) (errors errors' : List LexError) : Prop :=
  ∃ front front' faults depth loc loc', loc'.line = loc.line ∧
    List.Forall₂ Token.Moved front front' ∧
    tokens = front ++ Event.tokens false (.ended depth loc) ∧
    tokens' = front' ++ Event.tokens false (.ended depth loc') ∧
    errors = faults ++ Event.errors (.ended depth loc) ∧
    errors' = faults ++ Event.errors (.ended depth loc')

theorem tokens_of_isComment {e : Event} {keep : Bool} (code : e.isComment = false) :
    e.tokens keep = e.tokens false := by
  cases e with
  | piece p loc =>
      cases p with
      | comment _ => contradiction
      | _ => rfl
  | layout change loc => cases change <;> rfl
  | ended _ _ => rfl

theorem silent_of_isComment {e : Event} (isComment : e.isComment = true) :
    e.tokens false = [] ∧ e.errors = [] := by
  cases e with
  | piece p loc =>
      cases p with
      | comment _ => exact ⟨rfl, rfl⟩
      | _ => contradiction
  | layout _ _ | ended _ _ => contradiction

theorem Uncommented.endsMoved {events events' : List Event} (h : Uncommented events events')
    (keep : Bool) :
    EndsMoved (events.flatMap (Event.tokens false)) (events'.flatMap (Event.tokens keep))
      (events.flatMap Event.errors) (events'.flatMap Event.errors) := by
  induction h with
  | @newline loc loc' events events' line _ ih =>
      obtain ⟨front, front', faults, depth, last, last', ends, moved, tokens, tokens', errors,
          errors'⟩ :=
        ih
      refine ⟨⟨.newline, "\n", loc⟩ :: front, ⟨.newline, "\n", loc'⟩ :: front', faults, depth, last,
        last', ends, .cons (.inr ⟨rfl, loc'.column, by rw [← line]⟩) moved, ?_, ?_, errors, errors'⟩
      · rw [List.flatMap_cons, tokens]
        rfl
      · rw [List.flatMap_cons, tokens']
        rfl
  | comment isComment _ ih =>
      obtain ⟨noTokens, noErrors⟩ := silent_of_isComment isComment
      rw [List.flatMap_cons, List.flatMap_cons, noTokens, noErrors]
      exact ih
  | @same e events events' code _ ih =>
      obtain ⟨front, front', faults, depth, last, last', ends, moved, tokens, tokens', errors,
          errors'⟩ :=
        ih
      refine ⟨e.tokens false ++ front, e.tokens false ++ front', e.errors ++ faults, depth, last,
        last', ends, List.rel_append (List.forall₂_same.2 fun _ _ => .inl rfl) moved, ?_, ?_, ?_,
        ?_⟩
      · rw [List.flatMap_cons, tokens, List.append_assoc]
      · rw [List.flatMap_cons, tokens', tokens_of_isComment code, List.append_assoc]
      · rw [List.flatMap_cons, errors, List.append_assoc]
      · rw [List.flatMap_cons, errors', List.append_assoc]
  | @ended depth loc loc' line =>
      refine ⟨[], [], [], depth, loc, loc', line, .nil, ?_, ?_, ?_, ?_⟩ <;> simp [Event.tokens]

theorem edits_ended (depth : Nat) (loc loc' : Location) :
    List.Forall₂ (Grammar.Edits {}) (Event.tokens false (.ended depth loc))
      (Event.tokens false (.ended depth loc')) := by
  have marker (kind : Token.Kind) (structure' : kind.isStructural = true) :
      Grammar.Edits {} ⟨kind, "", loc⟩ ⟨kind, "", loc'⟩ :=
    ⟨rfl, fun unstructured => absurd structure' (by simp [unstructured])⟩
  refine List.rel_append ?_ (.cons (marker .eof rfl) .nil)
  induction depth with
  | zero => exact .nil
  | succ depth ih => exact .cons (marker .dedent rfl) ih

/-- What is moved has no part in the program. -/
theorem EndsMoved.toOption_parse {tokens tokens' : List Token} {errors errors' : List LexError}
    (h : EndsMoved tokens tokens' errors errors') (ended : Grammar.Ended tokens) :
    (parse tokens').toOption = (parse tokens).toOption := by
  obtain ⟨front, front', faults, depth, loc, loc', -, moved, rfl, rfl, -, -⟩ := h
  have hfront : List.Forall₂ (Grammar.Edits {}) front front' := by
    refine moved.imp fun t t' h => ?_
    obtain rfl | ⟨kind, column, rfl⟩ := h
    · exact ⟨rfl, fun _ => by simp [Edit.token]⟩
    · exact ⟨rfl, fun unstructured => by simp [kind, Token.Kind.isStructural] at unstructured⟩
  rw [Grammar.toOption_parse_of_forall₂ ended (List.rel_append hfront (edits_ended depth loc loc'))]
  cases parse (front ++ Event.tokens false (.ended depth loc)) with
  | error _ => rfl
  | ok p => exact congrArg some (Edit.program_id p)

/-- The events of a scan do not depend on what becomes of comments. -/
theorem pieceEvents_of_tabWidth {o o' : ScanOptions} (h : o'.tabWidth = o.tabWidth) (l : Layout)
    (loc : Location) (ps : List Piece) : pieceEvents o' l loc ps = pieceEvents o l loc ps := by
  fun_induction pieceEvents o l loc ps with
  | case1 => rfl
  | case2 l loc rest below ih =>
      rw [pieceEvents_newline, eventsFrom, h, ih, lineEvents, h]
      rfl
  | case3 l loc p rest newline ih => rw [pieceEvents_cons (by simpa using newline), ih]

theorem eventsFrom_of_tabWidth {o o' : ScanOptions} (h : o'.tabWidth = o.tabWidth) (l : Layout)
    (loc : Location) (ps : List Piece) : eventsFrom o' l loc ps = eventsFrom o l loc ps := by
  rw [eventsFrom, lineEvents, h, pieceEvents_of_tabWidth h]
  rfl

theorem endsMoved_withoutComments {source : String} (returns : Text.ReturnsPaired source.toList)
    (tabWidth : Nat) (keep : Bool) :
    let dropped := ofString source ⟨tabWidth, false⟩
    let bare := ofString (String.ofList (Text.withoutComments source.toList)) ⟨tabWidth, keep⟩
    EndsMoved dropped.tokens bare.tokens dropped.errors bare.errors := by
  intro dropped bare
  have moved := (@uncommented_ofString ⟨tabWidth, false⟩ source returns).endsMoved keep
  rw [tokens_ofString, tokens_ofString, errors_ofString, errors_ofString, String.toList_ofList,
    @eventsFrom_of_tabWidth ⟨tabWidth, false⟩ ⟨tabWidth, keep⟩ rfl]
  exact moved

theorem kind_ne_comment {e : Event} (stands : ∀ p loc, e = .piece p loc → ∃ rest, p.Stands rest) :
    ∀ t ∈ e.tokens false, t.kind ≠ .comment := by
  intro t ht
  cases e with
  | piece p loc =>
      obtain ⟨rest, stands⟩ := stands p loc rfl
      cases stands with
      | newline | closed _ | unclosed _ =>
          obtain rfl := List.mem_singleton.1 ht
          simp
      | lexeme written _ =>
          obtain rfl := List.mem_singleton.1 ht
          rintro rfl
          contradiction
      | blank _ _ | rejected _ | comment _ _ => contradiction
  | layout change loc =>
      cases change with
      | misaligned _ => contradiction
      | opened _ | closed _ =>
          obtain rfl := List.mem_singleton.1 ht
          simp
  | ended depth loc =>
      obtain ht | ht := List.mem_append.1 ht
      · rw [List.eq_of_mem_replicate ht]
        simp
      · rw [List.mem_singleton.1 ht]
        simp

theorem tokens_dropped (source : String) (tabWidth : Nat) :
    (ofString source ⟨tabWidth, false⟩).tokens =
      (ofString source ⟨tabWidth, true⟩).tokens.filter (·.kind ≠ .comment) := by
  rw [tokens_ofString, tokens_ofString,
    @eventsFrom_of_tabWidth ⟨tabWidth, true⟩ ⟨tabWidth, false⟩ rfl,
    List.filter_flatMap]
  refine List.flatMap_congr fun e he => ?_
  have plain := kind_ne_comment fun p loc (hp : e = .piece p loc) => by
    obtain ⟨front, back, hsplit, -⟩ := exists_of_mem_eventsFrom (hp ▸ he)
    exact Piece.exists_stands_of_mem_split (hsplit ▸ List.mem_append_right _ List.mem_cons_self)
  change e.tokens false = (e.tokens true).filter _
  cases isComment : e.isComment with
  | false =>
      rw [@tokens_of_isComment e true isComment]
      exact (List.filter_eq_self.2 fun t ht => by simpa using plain t ht).symm
  | true =>
      rw [(silent_of_isComment isComment).1]
      cases e with
      | piece p loc =>
          cases p with
          | comment _ => rfl
          | _ => contradiction
      | layout _ _ | ended _ _ => contradiction

theorem errors_dropped (source : String) (tabWidth : Nat) :
    (ofString source ⟨tabWidth, false⟩).errors = (ofString source ⟨tabWidth, true⟩).errors := by
  rw [errors_ofString, errors_ofString,
    @eventsFrom_of_tabWidth ⟨tabWidth, true⟩ ⟨tabWidth, false⟩ rfl]

end Scan

namespace Batch

open CommandLine

/-- The log records of a run over a text. -/
def records (o : Options) (source : String) : List Log.Record :=
  let scan := Scan.ofString source o.scan
  ⟨.debug, .program, "starting paso with args: " ++ o.describe⟩ ::
    (scan.log ++ parseLog scan.tokens ++ [summary o.file scan (parse scan.tokens).toBool])

/-- The messages about the errors in a text. -/
def messages (scan : Scan) : List String :=
  scan.errors.map LexError.message ++
    match parse scan.tokens with
    | .ok _ => []
    | .error e => [e.message]

/-- The outline of the program in a text. -/
def outline (scan : Scan) : List String :=
  match parse scan.tokens with
  | .ok p => p.outline
  | .error _ => []

theorem written_append (v : Log.Verbosity) (rs rs' : List Log.Record) :
    written v (rs ++ rs') = written v rs ++ written v rs' := by
  simp [written]

theorem analyse_eq (o : Options) (source : String) :
    let scan := Scan.ofString source o.scan
    analyse o source =
      { status := if (messages scan).isEmpty then 0 else 1
        output := unlines ((if o.tokens then scan.tokens.map tokenLine else []) ++
          (if o.tree then outline scan else []))
        errors := written o.verbosity (scan.log ++ parseLog scan.tokens ++
            [summary o.file scan (parse scan.tokens).toBool]) ++
          (if o.isBatch then messages scan else []) } := by
  intro scan
  unfold analyse messages outline
  cases parsed : parse (Scan.ofString source o.scan).tokens with
  | ok p => simp only [scan, parsed, List.isEmpty_nil, Except.toBool]
  | error e => simp only [scan, parsed, List.isEmpty_cons, Except.toBool]

/-- What a run over a text reports: its output, and the messages behind the log. -/
theorem run_ok (o : Options) (source : String) :
    let scan := Scan.ofString source o.scan
    run o (.ok source) =
      { status := if (messages scan).isEmpty then 0 else 1
        output := unlines ((if o.tokens then scan.tokens.map tokenLine else []) ++
          (if o.tree then outline scan else []))
        errors := written o.verbosity (records o source) ++
          (if o.isBatch then messages scan else []) } := by
  intro scan
  simp only [run, analyse_eq, records]
  rw [← List.append_assoc, ← written_append, List.singleton_append]

end Batch

open Batch in
/-- Comments never change a program. A scan that leaves them out gives the same tokens without them;
the text without them, if no return stands apart from its newline, gives the same again but for some
columns; all these tokens make the same program or none. Two runs that differ in what becomes of
comments differ in their log and in the lines for the comment tokens. -/
theorem scan_comments (source : String) (tabWidth : Nat) :
    (Scan.ofString source ⟨tabWidth, false⟩).errors =
      (Scan.ofString source ⟨tabWidth, true⟩).errors ∧
    let kept := Scan.ofString source ⟨tabWidth, true⟩
    let dropped := Scan.ofString source ⟨tabWidth, false⟩
    let code := kept.tokens.filter (·.kind ≠ .comment)
    dropped.tokens = code ∧ parse dropped.tokens = parse kept.tokens ∧
    (Text.ReturnsPaired source.toList → ∀ keep,
      let bare := Scan.ofString (String.ofList (Text.withoutComments source.toList))
        ⟨tabWidth, keep⟩
      Scan.EndsMoved dropped.tokens bare.tokens dropped.errors bare.errors ∧
      (parse bare.tokens).toOption = (parse dropped.tokens).toOption) ∧
    ∀ file tokens tree verbosity,
      let o : CommandLine.Options := ⟨file, tokens, tree, ⟨tabWidth, true⟩, verbosity⟩
      let o' : CommandLine.Options := ⟨file, tokens, tree, ⟨tabWidth, false⟩, verbosity⟩
      let report := run o (.ok source)
      let report' := run o' (.ok source)
      report'.status = report.status ∧
      report.errors = written verbosity (records o source) ++
        (if o.isBatch then messages kept else []) ∧
      report'.errors = written verbosity (records o' source) ++
        (if o.isBatch then messages kept else []) ∧
      report.output = unlines ((if tokens then kept.tokens.map tokenLine else []) ++
        (if tree then outline kept else [])) ∧
      report'.output = unlines ((if tokens then code.map tokenLine else []) ++
        (if tree then outline kept else [])) := by
  have errors := Scan.errors_dropped source tabWidth
  refine ⟨errors, ?_⟩
  intro kept dropped code
  have tokens : dropped.tokens = code := Scan.tokens_dropped source tabWidth
  have parses : parse dropped.tokens = parse kept.tokens := by
    rw [tokens]
    exact Grammar.parse_withoutComments _
  refine ⟨tokens, parses, fun returns keep => ?_, fun file showTokens showTree verbosity => ?_⟩
  · have ended : Grammar.Ended dropped.tokens := by
      rw [tokens]
      exact Grammar.ended_ofString source ⟨tabWidth, true⟩
    have moved := Scan.endsMoved_withoutComments returns tabWidth keep
    exact ⟨moved, moved.toOption_parse ended⟩
  · have sameMessages : messages dropped = messages kept := by
      rw [messages, messages, parses, errors]
    have sameOutline : outline dropped = outline kept := by
      rw [outline, outline, parses]
    intro o o' report report'
    have hreport : report = _ := run_ok o source
    have hreport' : report' = _ := run_ok o' source
    change report' = Report.mk (if (messages dropped).isEmpty then 0 else 1)
      (unlines ((if showTokens then dropped.tokens.map tokenLine else []) ++
        (if showTree then outline dropped else [])))
      (written verbosity (records o' source) ++ (if o.isBatch then messages dropped else []))
        at hreport'
    rw [sameMessages, sameOutline, tokens] at hreport'
    rw [hreport, hreport']
    exact ⟨rfl, rfl, rfl, rfl, rfl⟩

/-- Comments behind code, with a return, in front of nothing and at the end of the input; the tilde
in the string literal begins none. -/
def annotated : String := "si (a) ~ nota\r\n\tb = \"~\" ~ otra\n\n\t~ fin"

theorem scan_comments_annotated :
    Text.ReturnsPaired annotated.toList ∧
    let dropped := Scan.ofString annotated ⟨4, false⟩
    let bare := Scan.ofString "si (a) \n\tb = \"~\" \n\n\t" ⟨4, true⟩
    dropped.tokens = (Scan.ofString annotated ⟨4, true⟩).tokens.filter (·.kind ≠ .comment) ∧
    Scan.EndsMoved dropped.tokens bare.tokens dropped.errors bare.errors ∧
    (parse bare.tokens).toOption = (parse dropped.tokens).toOption := by
  have paired : ∀ t ∈ annotated.toList.tails, t.head? = some '\r' → t.tail.head? = some '\n' := by
    decide +kernel
  have returns : Text.ReturnsPaired annotated.toList :=
    fun rest h => paired _ ((List.mem_tails _ _).2 h) rfl
  have text : String.ofList (Text.withoutComments annotated.toList) =
      "si (a) \n\tb = \"~\" \n\n\t" := by decide +kernel
  obtain ⟨-, tokens, -, stripped, -⟩ := scan_comments annotated 4
  have bare := stripped returns true
  rw [text] at bare
  exact ⟨returns, tokens, bare⟩

end PasoFrontEnd
