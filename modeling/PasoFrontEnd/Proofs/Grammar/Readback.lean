import PasoFrontEnd.Proofs.Grammar.Completeness
import PasoFrontEnd.Proofs.Grammar.Span
import PasoFrontEnd.Proofs.Layout.Canonical
import PasoFrontEnd.Proofs.Tree.Edit
import PasoFrontEnd.Proofs.Tree.Rendering

/-!
Expressions read back from their text. Every operation is written in parentheses of its own and
every sign in parentheses too, so the text has one tree, and it needs one level of nesting for each
operation and two for each sign on the way down. With more levels than there are, the parse refuses
it for that.
-/

namespace PasoFrontEnd

open Edit (withoutPlaces)

def Token.sign (t : Token) : Token.Kind × List Char := (t.kind, t.lexeme.toList)

namespace Grammar

/-- On this input the rule finds no more room for the nesting. -/
def Rule.TooDeep {α : Type} (rule : Rule α) (ts : List Token) : Prop :=
  ∀ ⦃s : State⦄, s.input = ts → ∃ loc s', rule s = .error ⟨.nestingTooDeep maxNesting, loc⟩ s'

variable {α β : Type} {ts us rest : List Token}

theorem Rule.TooDeep.bind {x : Rule α} {f : α → Rule β} (h : x.TooDeep ts) :
    (x >>= f).TooDeep ts := by
  intro s hs
  obtain ⟨loc, s', hx⟩ := h hs
  refine ⟨loc, s', ?_⟩
  change EStateM.bind x f s = _
  simp only [EStateM.bind, hx]

theorem Rule.Reads.tooDeep {x : Rule α} {f : α → Rule β} {a : α} (h : x.Reads ts a us)
    (hf : (f a).TooDeep us) : (x >>= f).TooDeep ts := by
  intro s hs
  obtain ⟨s₁, hok, h₁⟩ := h hs
  obtain ⟨loc, s', herror⟩ := hf h₁
  exact ⟨loc, s', (Rule.bind_of_ok hok).trans herror⟩

theorem tooDeep_tooDeep : Rule.TooDeep (tooDeep : Rule α) ts :=
  fun s _ => ⟨s.next.location, s, rfl⟩

theorem operation_tooDeep {operand : Rule Expr} (h : operand.TooDeep ts) (rank : Nat) :
    (operation operand rank).TooDeep ts := by
  induction rank with
  | zero => exact h
  | succ rank ih => exact ih.bind

section unaryOver

variable {signed group : Rule Expr} {t : Token}

theorem unaryOver_group_tooDeep (opening : t.kind = .symbol .openParen) (inner : group.TooDeep ts) :
    (unaryOver signed group).TooDeep (t :: ts) := by
  refine Rule.Reads.peek.tooDeep ?_
  simp only [opening]
  exact (Rule.Reads.advance (by simp [opening])).tooDeep inner.bind

theorem unaryOver_negation_tooDeep (sign : t.kind = .symbol .minus) (operand : signed.TooDeep ts) :
    (unaryOver signed group).TooDeep (t :: ts) := by
  refine Rule.Reads.peek.tooDeep ?_
  simp only [sign]
  exact (Rule.Reads.advance (by simp [sign])).tooDeep operand.bind

end unaryOver

/-- The loop over the operators of a rank stops at a right operand that is too deep, and the loops
of the ranks above it are not begun. -/
theorem operation_right_tooDeep {depth n r rank : Nat} {l : Expr} {t : Token} {op : BinaryOp}
    (left : Expression 0 ts l (t :: us) n) (hn : n ≤ depth) (operator : Operator (r + 1) t.kind op)
    (right : (unary depth).TooDeep us) (ranked : r + 1 ≤ rank) :
    (operation (unary depth) rank).TooDeep ts := by
  induction ranked with
  | step _ ih => exact ih.bind
  | refl =>
      intro s hs
      obtain ⟨s₁, hleft, hs₁⟩ :=
        exists_operation_eq_resume left.loosened hn (loose_of_operator operator) hs
      obtain ⟨loc, s', hright⟩ :=
        operation_tooDeep right r (State.input_advance hs₁ (operator.kind_eq ▸ kind_ne_eof op))
      refine ⟨loc, s', hleft.trans ?_⟩
      rw [resume, joinedFrom, State.next_eq_of_input hs₁, operator.ofKind?]
      simp only [Option.filter_some, operator.rank_eq, decide_true, ↓reduceIte, hright]

theorem eq_of_sign {t : Token} {kind : Token.Kind} {lexeme : List Char}
    (h : t.sign = (kind, lexeme)) :
    t.kind = kind ∧ t.lexeme = String.ofList lexeme := by
  obtain ⟨kind', lexeme'⟩ := Prod.mk.inj h
  exact ⟨kind', by rw [← lexeme', String.ofList_toList]⟩

theorem writes_of_sign {t : Token} {value : Literal} (readable : value.Readable)
    (h : t.sign = value.sign) : Writes t value := by
  cases value with
  | integer n =>
      obtain ⟨kind, lexeme⟩ := eq_of_sign h
      refine .integer kind ?_
      rw [lexeme, String.ofList_toList]
      exact Decimal.readInt64?_toString readable
  | decimal _ => exact readable.elim
  | text s =>
      obtain ⟨kind, lexeme⟩ := eq_of_sign h
      rw [String.ofList_toList] at lexeme
      exact lexeme ▸ .text kind
  | boolean b =>
      cases b with
      | true => exact .verdadero (eq_of_sign h).1
      | false => exact .falso (eq_of_sign h).1
  | null => exact .nulo (eq_of_sign h).1

/-- A list that is spelled as a group, token by token. -/
theorem exists_group (inner : List (Token.Kind × List Char))
    (spelled : ts.map Token.sign = Symbol.openParen.sign :: (inner ++ [Symbol.closeParen.sign])) :
    ∃ o us c, ts = o :: (us ++ [c]) ∧ o.kind = .symbol .openParen ∧ us.map Token.sign = inner ∧
      c.kind = .symbol .closeParen := by
  obtain ⟨o, ts, rfl, ho, spelled⟩ := List.map_eq_cons_iff.1 spelled
  obtain ⟨us, cs, rfl, hus, hcs⟩ := List.map_eq_append_iff.1 spelled
  obtain ⟨c, rfl, hc⟩ := List.map_eq_singleton_iff.1 hcs
  exact ⟨o, us, c, rfl, (eq_of_sign ho).1, hus, (eq_of_sign hc).1⟩

/-- The tokens of a readable expression make it up again, but for its places. -/
theorem exists_expression {e : Expr} (readable : e.Readable)
    (spelled : ts.map Token.sign = e.signs) :
    ∃ e', withoutPlaces.expr e' = withoutPlaces.expr e ∧
    Expression 0 (ts ++ rest) e' rest e.cost := by
  induction e generalizing ts rest with
  | literal value _ =>
      obtain ⟨t, rfl, ht⟩ := List.map_eq_singleton_iff.1 spelled
      exact ⟨.literal value t.location, rfl, .literal (writes_of_sign readable ht)⟩
  | named name _ =>
      obtain ⟨t, rfl, ht⟩ := List.map_eq_singleton_iff.1 spelled
      obtain ⟨kind, lexeme⟩ := eq_of_sign ht
      rw [String.ofList_toList] at lexeme
      refine ⟨_, ?_, .named kind⟩
      rw [lexeme]
      rfl
  | negation operand _ ih =>
      obtain ⟨o, us, c, rfl, opening, spelled, closing⟩ := exists_group (_ :: _) spelled
      obtain ⟨m, us, rfl, hm, hus⟩ := List.map_eq_cons_iff.1 spelled
      obtain ⟨e', same, inner⟩ := @ih us (c :: rest) readable hus
      refine ⟨.negation e' m.location, congrArg (Expr.negation · _) same, ?_⟩
      have group :=
        Expression.group opening (Expression.negation (eq_of_sign hm).1 inner).loosened closing
      rw [Expr.cost, Nat.add_comm]
      simpa using group
  | operation op left right _ ihl ihr =>
      obtain ⟨o, us, c, rfl, opening, spelled, closing⟩ :=
        exists_group (_ ++ _ :: _) (by simpa [Expr.signs] using spelled)
      obtain ⟨ls, us, rfl, hls, hus⟩ := List.map_eq_append_iff.1 spelled
      obtain ⟨t, rs, rfl, ht, hrs⟩ := List.map_eq_cons_iff.1 hus
      obtain ⟨l, sameLeft, hl⟩ := @ihl ls (t :: (rs ++ c :: rest)) readable.1 hls
      obtain ⟨r, sameRight, hr⟩ := @ihr rs (c :: rest) readable.2 hrs
      refine ⟨.operation op l r t.location, ?_, ?_⟩
      · change Expr.operation op (withoutPlaces.expr l) (withoutPlaces.expr r) _ = _
        rw [sameLeft, sameRight]
        rfl
      · obtain ⟨rank, operator⟩ := Operator.exists_of_kind (eq_of_sign ht).1
        have whole := Expression.operation hl.loosened operator hr.loosened
        have group := Expression.group opening (whole.mono operator.rank_le) closing
        rw [Expr.cost, Nat.add_comm]
        simpa using group

/-- With less depth left than the expression costs it is refused. -/
theorem unary_tooDeep {e : Expr} (readable : e.Readable) (spelled : ts.map Token.sign = e.signs)
    {depth : Nat} (deep : depth < e.cost) : (unary depth).TooDeep (ts ++ rest) := by
  induction e generalizing ts rest depth with
  | literal _ _ | named _ _ => exact absurd deep (Nat.not_lt_zero _)
  | negation operand _ ih =>
      obtain ⟨o, us, c, rfl, opening, spelled, -⟩ := exists_group (_ :: _) spelled
      obtain ⟨m, us, rfl, hm, hus⟩ := List.map_eq_cons_iff.1 spelled
      have minus := (eq_of_sign hm).1
      match depth with
      | 0 => exact unaryOver_group_tooDeep opening tooDeep_tooDeep
      | 1 =>
          exact unaryOver_group_tooDeep opening
            (operation_tooDeep (unaryOver_negation_tooDeep minus tooDeep_tooDeep) _)
      | depth + 2 =>
          have inner : (unary depth).TooDeep (us ++ c :: rest) :=
            ih readable hus (by rw [Expr.cost] at deep; omega)
          have sign : (unary (depth + 1)).TooDeep (m :: (us ++ c :: rest)) :=
            unaryOver_negation_tooDeep minus inner
          have group : (unary (depth + 2)).TooDeep (o :: m :: (us ++ c :: rest)) :=
            unaryOver_group_tooDeep opening (operation_tooDeep sign loosest)
          simpa using group
  | operation op left right _ ihl ihr =>
      obtain ⟨o, us, c, rfl, opening, spelled, -⟩ :=
        exists_group (_ ++ _ :: _) (by simpa [Expr.signs] using spelled)
      obtain ⟨ls, us, rfl, hls, hus⟩ := List.map_eq_append_iff.1 spelled
      obtain ⟨t, rs, rfl, ht, hrs⟩ := List.map_eq_cons_iff.1 hus
      cases depth with
      | zero => exact unaryOver_group_tooDeep opening tooDeep_tooDeep
      | succ depth =>
          have inner :
              (operation (unary depth) loosest).TooDeep (ls ++ t :: (rs ++ c :: rest)) := by
            by_cases leftDeep : depth < left.cost
            · exact operation_tooDeep (ihl readable.1 hls leftDeep) _
            · have rightDeep : depth < right.cost := by rw [Expr.cost] at deep; omega
              obtain ⟨l, -, hl⟩ :=
                @exists_expression ls (t :: (rs ++ c :: rest)) left readable.1 hls
              obtain ⟨rank, operator⟩ := Operator.exists_of_kind (eq_of_sign ht).1
              exact operation_right_tooDeep hl (Nat.le_of_not_lt leftDeep) operator
                (ihr readable.2 hrs rightDeep) operator.rank_le
          have group : (unary (depth + 1)).TooDeep (o :: (ls ++ t :: (rs ++ c :: rest))) :=
            unaryOver_group_tooDeep opening inner
          simpa using group

theorem statements_tooDeep {stop : Token.Kind → Bool} {stmt : Rule Stmt} {t : Token}
    (goesOn : stop t.kind = false) (inLine : t.kind ≠ .newline) (h : stmt.TooDeep (t :: ts)) :
    (statements stop stmt).TooDeep (t :: ts) := by
  intro s hs
  have hskip := State.input_skipNewlines (by rw [hs]; exact .none) inLine
  have first : (spaced stmt).TooDeep (t :: ts) := h.bind
  obtain ⟨loc, s', herror⟩ := first hskip
  refine ⟨loc, s', ?_⟩
  rw [statements_eq, manyUntil, State.next_eq_of_input hskip, goesOn]
  simp only [Bool.false_eq_true, ↓reduceIte, herror]

section assignment

variable {x a eof : Token} {e : Expr}

/-- The tokens of an assignment of a readable expression, without a newline. -/
structure Assigns (x a : Token) (e : Expr) (ts : List Token) (eof : Token) : Prop where
  name : x.kind = .identifier
  assign : a.kind = .symbol .assign
  readable : e.Readable
  spelled : ts.map Token.sign = e.signs
  ends : eof.kind = .eof
  ended : Ended (x :: a :: (ts ++ [eof]))

theorem Assigns.parse_eq_ok (h : Assigns x a e ts eof) (fits : e.cost ≤ maxNesting - 1) :
    ∃ value, parse (x :: a :: (ts ++ [eof])) = .ok ⟨[.assignment x.lexeme value x.location]⟩ ∧
      withoutPlaces.expr value = withoutPlaces.expr e := by
  obtain ⟨value, same, expression⟩ := @exists_expression ts [eof] e h.readable h.spelled
  have statement := Statement.assignment h.name h.assign expression.loosened (.ahead (.inr h.ends))
  have derivation := Derivation.intro (.cons .none statement (.nil .none)) h.ends
  have room : max (e.cost + 1) 0 ≤ maxNesting := by
    have limit : maxNesting = 128 := rfl
    omega
  exact ⟨value, parse_eq_ok_iff.2 (reads_program derivation room (input_ofTokens h.ended)), same⟩

theorem Assigns.parse_eq_error (h : Assigns x a e ts eof) (deep : maxNesting - 1 < e.cost) :
    ∃ loc, parse (x :: a :: (ts ++ [eof])) = .error ⟨.nestingTooDeep maxNesting, loc⟩ := by
  have value : (expression maxNesting).TooDeep (ts ++ [eof]) :=
    operation_tooDeep (unary_tooDeep h.readable h.spelled deep) loosest
  have statement : (statement maxNesting).TooDeep (x :: a :: (ts ++ [eof])) := by
    refine Rule.Reads.peek.tooDeep (Rule.Reads.noteBegun.tooDeep ?_)
    simp only [h.name]
    exact (Rule.Reads.advance (by simp [h.name])).tooDeep
      ((Rule.Reads.expect h.assign (by simp)).tooDeep value.bind)
  have program : program.TooDeep (x :: a :: (ts ++ [eof])) :=
    (statements_tooDeep (by simp [h.name]) (by simp [h.name]) statement).bind
  obtain ⟨loc, s', herror⟩ := program (input_ofTokens h.ended)
  exact ⟨loc, by rw [parse, herror]⟩

end assignment

end Grammar

namespace Scan

open Piece (OfCode ofToken)

variable {o : ScanOptions} {l : Layout} {loc : Location} {ps : List Piece}

/-- Code on the last line of a text is put out as it is spelled. -/
theorem exists_tokens_code (code : ∀ p ∈ ps, p.OfCode) (outside : l.levels = []) :
    ∃ ts eof, (pieceEvents o l loc ps).flatMap (Event.tokens o.keepComments) = ts ++ [eof] ∧
      ts.map Token.sign = ps.flatMap (fun p => (p.token? true).toList) ∧ eof.kind = .eof ∧
      ∀ t ∈ ts, t.kind ≠ .eof ∧ t.kind ≠ .comment := by
  induction ps generalizing loc with
  | nil =>
      rw [pieceEvents, outside]
      exact ⟨[], _, rfl, rfl, rfl, by simp⟩
  | cons p ps ih =>
      rw [List.forall_mem_cons] at code
      obtain ⟨ts, eof, tokens, spelled, ends, kinds⟩ := @ih (loc.advance p.chars) code.2
      obtain rfl | ⟨⟨kind, lexeme⟩, rfl, structured, notComment⟩ := code.1
      · rw [pieceEvents_cons (by simp), List.flatMap_cons, tokens]
        exact ⟨ts, eof, rfl, spelled, ends, kinds⟩
      · have token : (ofToken (kind, lexeme)).token? o.keepComments = some (kind, lexeme) := by
          cases kind <;> first | rfl | contradiction
        have notEof : kind ≠ .eof := by
          rintro rfl
          contradiction
        rw [pieceEvents_cons (Piece.ofToken_ne_newline _), List.flatMap_cons, tokens, Event.tokens,
          token]
        refine ⟨⟨kind, String.ofList lexeme, loc⟩ :: ts, eof, rfl, ?_, ends, ?_⟩
        · rw [List.map_cons, spelled, List.flatMap_cons, Piece.token?_ofToken, Token.sign,
            String.toList_ofList]
          rfl
        · rw [List.forall_mem_cons]
          exact ⟨⟨notEof, notComment⟩, kinds⟩

theorem errors_code (code : ∀ p ∈ ps, p.OfCode) (outside : l.levels = []) :
    (pieceEvents o l loc ps).flatMap Event.errors = [] := by
  have silent : ∀ p ∈ ps, p ≠ .newline ∧ p.fault? = none := by
    intro p hp
    obtain rfl | ⟨t, rfl, -, -⟩ := code p hp
    · exact ⟨by simp, rfl⟩
    · exact ⟨Piece.ofToken_ne_newline t, Piece.fault?_ofToken t⟩
  have errors := flatMap_pieceEvents (o := o) (f := Event.errors) (g := fun _ => [])
    (fun newline => (silent _ newline).1 rfl)
    (fun p hp loc => by rw [Event.errors, (silent p hp).2]) l loc []
  rw [List.append_nil, pieceEvents, outside] at errors
  rw [errors]
  simp [Event.errors]

end Scan

theorem Expr.flatMap_token?_pieces (e : Expr) :
    e.pieces.flatMap (fun p => (p.token? true).toList) = e.signs := by
  have blank : (Piece.blank ' ').token? true = none := rfl
  induction e with
  | literal _ _ | named _ _ => simp [pieces, signs, Piece.token?_ofToken]
  | negation _ _ ih => simp [pieces, signs, Piece.token?_ofToken, ih]
  | operation _ _ _ _ ihl ihr => simp [pieces, signs, Piece.token?_ofToken, ihl, ihr, blank]

open Piece in
theorem Expr.split_assigned {e : Expr} (h : e.Readable) :
    split ("x = " ++ e.render).toList = ofToken (.identifier, ['x']) :: .blank ' ' ::
      ofToken Symbol.assign.sign :: .blank ' ' :: e.pieces := by
  have name : Plain (.identifier, ['x']) := .identifier rfl (by simp) rfl
  have ends : Ends (' ' :: '=' :: ' ' :: e.render.toList) := by
    refine ⟨fun c hc => ?_, rfl⟩
    cases hc
    decide
  have text : ("x = " ++ e.render).toList = ['x'] ++ ' ' :: '=' :: ' ' :: e.render.toList := by
    rw [String.toList_append]
    rfl
  have value := split_render h Ends.nil
  rw [List.append_nil, split_nil, List.append_nil] at value
  have operand := split_operand name rfl ends
  rw [text]
  change split (['x'] ++ ' ' :: '=' :: ' ' :: e.render.toList) = _ at operand
  rw [operand, split_space, split_cons]
  change _ :: _ :: (readSymbol '=' (' ' :: e.render.toList)).1 ::
    split (readSymbol '=' (' ' :: e.render.toList)).2 = _
  rw [readSymbol, split_space, value]
  · rfl
  · simp

/-- The tokens of the text of an assignment are those of an assignment. -/
theorem exists_assigns {e : Expr} (h : e.Readable) (o : ScanOptions) :
    let scan := Scan.ofString ("x = " ++ e.render) o
    scan.errors = [] ∧ ∃ x a ts eof, scan.tokens = x :: a :: (ts ++ [eof]) ∧ x.lexeme = "x" ∧
      Grammar.Assigns x a e ts eof := by
  intro scan
  have code : ∀ p ∈ Piece.split ("x = " ++ e.render).toList, p.OfCode := by
    rw [e.split_assigned h]
    simp only [List.forall_mem_cons]
    exact ⟨Piece.ofCode_operand rfl, .inl rfl, Piece.ofCode_symbol _, .inl rfl,
      fun p hp => e.ofCode_of_mem_pieces hp⟩
  have events : scan.events =
      Scan.pieceEvents o {} .start (Piece.split ("x = " ++ e.render).toList) := by
    change Scan.eventsFrom o {} .start _ = _
    rw [Scan.eventsFrom, Scan.lineEvents, e.split_assigned h]
    rfl
  obtain ⟨ts, eof, tokens, spelled, ends, kinds⟩ :=
    @Scan.exists_tokens_code o {} .start _ code rfl
  rw [← events] at tokens
  refine ⟨?_, ?_⟩
  · rw [Scan.errors, events]
    exact Scan.errors_code code rfl
  · have signs : ts.map Token.sign = (.identifier, ['x']) :: Symbol.assign.sign :: e.signs := by
      rw [spelled, e.split_assigned h]
      simp only [List.flatMap_cons, Piece.token?_ofToken, e.flatMap_token?_pieces]
      rfl
    obtain ⟨x, us, rfl, hx, signs⟩ := List.map_eq_cons_iff.1 signs
    obtain ⟨a, vs, rfl, ha, signs⟩ := List.map_eq_cons_iff.1 signs
    obtain ⟨name, lexeme⟩ := Grammar.eq_of_sign hx
    exact ⟨x, a, vs, eof, tokens, lexeme, name, (Grammar.eq_of_sign ha).1, h, signs, ends,
      ⟨x :: a :: vs, eof, rfl, ends, kinds⟩⟩

/-- The text of an expression can be read back. Behind `x = ` the scan has no errors, and the parse
gives one assignment of the expression, but for its places, as long as it costs less than the limit
of nesting; from there on it is refused for its nesting. -/
theorem scan_render {e : Expr} (h : e.Readable) (o : ScanOptions) :
    let scan := Scan.ofString ("x = " ++ e.render) o
    scan.errors = [] ∧
    (e.cost ≤ Grammar.maxNesting - 1 → ∃ value loc,
      parse scan.tokens = .ok ⟨[.assignment "x" value loc]⟩ ∧
        withoutPlaces.expr value = withoutPlaces.expr e) ∧
    (Grammar.maxNesting - 1 < e.cost → ∃ loc,
      parse scan.tokens = .error ⟨.nestingTooDeep Grammar.maxNesting, loc⟩) := by
  intro scan
  obtain ⟨errors, x, a, ts, eof, tokens, lexeme, assigns⟩ := exists_assigns h o
  change scan.tokens = _ at tokens
  rw [tokens]
  refine ⟨errors, fun fits => ?_, assigns.parse_eq_error⟩
  obtain ⟨value, parsed, same⟩ := assigns.parse_eq_ok fits
  exact ⟨value, x.location, lexeme ▸ parsed, same⟩

/-- Signs and operators with words in them: no name is taken for a part of a keyword, and what looks
like code in the text of a string literal is none. -/
def wordy : Expr :=
  .operation .and
    (.operation .or (.named "de" ⟨1, 1⟩) (.negation (.literal (.integer 7) ⟨1, 1⟩) ⟨1, 1⟩) ⟨1, 1⟩)
    (.operation .sub (.literal (.text "~ (-1) Y\n") ⟨1, 1⟩) (.literal .null ⟨1, 1⟩) ⟨1, 1⟩) ⟨1, 1⟩

/-- A name behind the given number of signs. -/
def signed : Nat → Expr
  | 0 => .named "de" ⟨1, 1⟩
  | n + 1 => .negation (signed n) ⟨1, 1⟩

theorem signed_readable (n : Nat) : (signed n).Readable := by
  induction n with
  | zero => exact ⟨⟨'d', ['e'], rfl, rfl, List.all_eq_true.1 rfl⟩, rfl⟩
  | succ n ih => exact ih

theorem scan_render_wordy :
    wordy.Readable ∧ wordy.cost = 4 ∧ (signed 64).cost = 128 ∧
    wordy.render = "((de O (-7)) Y (\"~ (-1) Y\n\" - nulo))" ∧
    (∃ value loc, parse (Scan.ofString ("x = " ++ wordy.render) {}).tokens =
        .ok ⟨[.assignment "x" value loc]⟩ ∧ withoutPlaces.expr value = withoutPlaces.expr wordy) ∧
    ∃ loc, parse (Scan.ofString ("x = " ++ (signed 64).render) {}).tokens =
      .error ⟨.nestingTooDeep 128, loc⟩ := by
  have readable : wordy.Readable := by
    refine ⟨⟨signed_readable 0, ?_⟩, ?_, trivial⟩
    · change 0 ≤ (7 : Int64).toInt
      decide
    · change '"' ∉ "~ (-1) Y\n".toList
      decide +kernel
  have cost : (signed 64).cost = 128 := by decide +kernel
  refine ⟨readable, rfl, cost, by decide +kernel, (scan_render readable {}).2.1 (by decide), ?_⟩
  exact (scan_render (signed_readable 64) {}).2.2 (by rw [cost]; decide)

end PasoFrontEnd
