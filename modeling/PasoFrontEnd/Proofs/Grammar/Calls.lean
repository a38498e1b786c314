import Mathlib.Data.List.TakeWhile
import Mathlib.Order.Monotone.Basic
import PasoFrontEnd.Grammar.Parser
import PasoFrontEnd.Proofs.Grammar.Completeness
import PasoFrontEnd.Proofs.Grammar.Locality

/-!
Calls of one parser. The levels of nesting that its rules count are the room that the rules of the
grammar have, so a call answers what the grammar answers to the tokens that are still to come, and
gives every level back. Calls only move forward, and a call that does not move is repeated by all
later ones: there are no more calls that move than tokens.
-/

namespace PasoFrontEnd

namespace Grammar

open Rule

section levels

variable {α : Type} {E : SyntaxError → Prop} {depth : Nat} {x x' : Rule α}

theorem nested_eq_result {s s₁ : State} {r : Except SyntaxError α} (room : s.depth < maxNesting)
    (h : nested x s = result r s₁) :
    ∃ after, x { s with depth := s.depth + 1 } = result r after ∧
      s₁ = { after with depth := after.depth - 1 } := by
  rw [nested, if_neg (Nat.not_le.2 room)] at h
  split at h
  case h_1 a after hx =>
    obtain ⟨rfl, rfl⟩ := @result_inj _ (.ok a) _ _ _ h
    exact ⟨after, hx, rfl⟩
  case h_2 e after hx =>
    obtain ⟨rfl, rfl⟩ := @result_inj _ (.error e) _ _ _ h
    exact ⟨after, hx, rfl⟩

/-- However the rule one level deeper ends, its level is given back. -/
theorem nested_inStep (room : depth < maxNesting) (h : InStep (· = depth + 1) E x x') :
    InStep (· = depth) E (nested x) x' := by
  intro s s₁ r hs hrun settled
  obtain ⟨after, hx, rfl⟩ := nested_eq_result (hs ▸ room) hrun
  obtain ⟨onward, alike⟩ := h (congrArg (· + 1) hs) hx settled
  refine ⟨⟨?_, onward.position⟩, alike⟩
  exact Nat.sub_eq_of_eq_add onward.depth

theorem nested_inStep_tooDeep (full : depth = maxNesting) :
    InStep (· = depth) E (nested x) tooDeep := by
  intro s s₁ r hs hrun settled
  rw [nested, if_pos (hs.trans full).ge] at hrun
  exact (InStep.tooDeep : InStep (· = depth) E _ _) hs hrun settled

namespace Counted

variable {calls room : Nat}

/-- The open levels and the room that is left add up to the limit; how often rules may stand inside
each other beyond that makes no difference. -/
theorem unary_inStep (total : depth + room = maxNesting) (enough : room ≤ calls) :
    InStep (· = depth) E (unary calls) (Grammar.unary room) := by
  induction room generalizing depth calls with
  | zero =>
      have full : depth = maxNesting := total
      cases calls <;> exact unaryOver_inStep (nested_inStep_tooDeep full)
        (nested_inStep_tooDeep full)
  | succ room ih =>
      cases calls with
      | zero => exact absurd enough (Nat.not_succ_le_zero _)
      | succ calls =>
          -- what was a level of room in front of `nested` is an open level behind it
          have open' : depth < maxNesting := by omega
          have inner : InStep (· = depth + 1) E (unary calls) (Grammar.unary room) :=
            ih (by omega) (Nat.le_of_succ_le_succ enough)
          exact unaryOver_inStep (nested_inStep open' inner)
            (nested_inStep open' (operation_inStep inner loosest))

theorem expression_inStep (total : depth + room = maxNesting) (enough : room ≤ calls) :
    InStep (· = depth) E (expression calls) (Grammar.expression room) := by
  cases room with
  | zero =>
      have full : depth = maxNesting := total
      cases calls with
      | zero => exact nested_inStep_tooDeep (x := tooDeep) full
      | succ calls => exact nested_inStep_tooDeep (x := operation (unary calls) loosest) full
  | succ room =>
      cases calls with
      | zero => exact absurd enough (Nat.not_succ_le_zero _)
      | succ calls =>
          have inner : InStep (· = depth + 1) E (unary calls) (Grammar.unary room) :=
            unary_inStep (by omega) (Nat.le_of_succ_le_succ enough)
          exact nested_inStep (by omega) (operation_inStep inner loosest)

theorem statement_inStep (total : depth + room = maxNesting) (enough : room ≤ calls) :
    InStep (· = depth) E (statement calls) (Grammar.statement room) := by
  induction room generalizing depth calls with
  | zero =>
      have full : depth = maxNesting := total
      cases calls <;>
        exact statementOver_inStep (expression_inStep total enough) (nested_inStep_tooDeep full)
  | succ room ih =>
      cases calls with
      | zero => exact absurd enough (Nat.not_succ_le_zero _)
      | succ calls =>
          have inner : InStep (· = depth + 1) E (statement calls) (Grammar.statement room) :=
            ih (by omega) (Nat.le_of_succ_le_succ enough)
          exact statementOver_inStep (expression_inStep total enough)
            (nested_inStep (by omega) (blockBody_inStep inner))

theorem program_inStep : InStep (· = 0) E program Grammar.program :=
  .bind (statements_inStep (statement_inStep (Nat.zero_add _) (Nat.le_refl _))) fun _ => .pure _

end Counted

end levels

namespace Rule

variable {α : Type} {x : Rule α} {s s₁ t t₁ : State} {r r' : Except SyntaxError α}

theorem EndsAlike.run (h : EndsAlike x s s₁ r) : ∃ t, x s = result r t ∧ t.input = s₁.input := by
  obtain ⟨front, hfront, again⟩ := h
  exact again hfront rfl

theorem EndsAlike.suffix (h : EndsAlike x s s₁ r) : s₁.input <:+ s.input := by
  obtain ⟨front, hfront, -⟩ := h
  exact ⟨front, hfront.symm⟩

/-- Where the rule ends depends on the tokens to come and on nothing else. -/
theorem EndsAlike.unique (h : EndsAlike x s s₁ r) (h' : EndsAlike x t t₁ r')
    (same : s.input = t.input) : r = r' ∧ s₁.input = t₁.input := by
  obtain ⟨u, hu, hinput⟩ := h.run
  obtain ⟨front, hfront, again⟩ := h'
  obtain ⟨u', hu', hinput'⟩ := again (same.trans hfront) rfl
  obtain ⟨rfl, rfl⟩ := result_inj (hu.symm.trans hu')
  exact ⟨rfl, hinput.symm.trans hinput'⟩

end Rule

theorem State.left_eq_zero_iff {s : State} : s.left = 0 ↔ s.next.kind = .eof := by
  constructor
  · intro none
    rw [s.left_eq, List.length_eq_zero_iff] at none
    simp [State.next, none, s.eof_kind]
  · intro ends
    have whole := s.length_input
    rw [State.input_of_next_eof ends, List.length_singleton] at whole
    omega

/-- The input of tokens ends where an input stands in front of them. -/
theorem State.input_ofTokens_append (s : State) {behind : List Token}
    (code : ∀ t ∈ s.input ++ behind, t.kind ≠ .comment) :
    (State.ofTokens (s.input ++ behind)).input = s.input := by
  have whole : (s.input ++ behind).filter (·.kind ≠ .comment) = s.tokens ++ s.eof :: behind := by
    rw [List.filter_eq_self.2 (by simpa using code), State.input, List.append_assoc,
      List.singleton_append]
  exact input_ofTokens_of_filter whole s.kind_ne_eof s.eof_kind

end Grammar

namespace Parser

open Grammar

/-- The parser behind some calls for a program. -/
def afterCalls (p : Parser) : Nat → Parser
  | 0 => p
  | k + 1 => (p.afterCalls k).program.2

/-- The answer to a call that is made behind the given number of calls. -/
def answer (p : Parser) (k : Nat) : Except SyntaxError Program := (p.afterCalls k).program.1

variable {p : Parser} {j k : Nat}

theorem program_eq_result (p : Parser) :
    Counted.program p.state = Rule.result p.program.1 p.program.2.state := by
  rw [program]
  cases Counted.program p.state <;> rfl

/-- A call gives its levels back and moves forward, and the grammar answers it. -/
theorem program_inStep (idle : p.depth = 0) :
    Rule.Onward p.state p.program.2.state ∧
      Rule.EndsAlike Grammar.program p.state p.program.2.state p.program.1 := by
  have settled : Rule.Settled (fun _ => True) p.program.1 := by
    cases p.program.1 <;> trivial
  exact Counted.program_inStep idle p.program_eq_result settled

/-- The first answer of a parser is that of parsing its tokens. -/
theorem program_ofTokens (tokens : List Token) : (ofTokens tokens).program.1 = parse tokens := by
  obtain ⟨t, ht, -⟩ := (program_inStep (p := ofTokens tokens) rfl).2.run
  change Grammar.program (.ofTokens tokens) = _ at ht
  rw [parse, ht]
  cases (ofTokens tokens).program.1 <;> rfl

theorem depth_afterCalls (idle : p.depth = 0) (k : Nat) : (p.afterCalls k).depth = 0 := by
  induction k with
  | zero => exact idle
  | succ k ih => exact (program_inStep ih).1.depth.trans ih

/-- What a call does, whatever calls were made in front of it. -/
theorem call_inStep (idle : p.depth = 0) (k : Nat) :
    Rule.Onward (p.afterCalls k).state (p.afterCalls (k + 1)).state ∧
      Rule.EndsAlike Grammar.program (p.afterCalls k).state (p.afterCalls (k + 1)).state
        (p.answer k) :=
  program_inStep (depth_afterCalls idle k)

theorem position_afterCalls (idle : p.depth = 0) (k : Nat) :
    (p.afterCalls k).position + (p.afterCalls k).state.left = p.position + p.state.left := by
  induction k with
  | zero => rfl
  | succ k ih => exact (call_inStep idle k).1.position.trans ih

theorem suffix_afterCalls (idle : p.depth = 0) (le : j ≤ k) :
    (p.afterCalls k).state.input <:+ (p.afterCalls j).state.input := by
  induction le with
  | refl => exact List.suffix_rfl
  | @step k _ ih => exact (call_inStep idle k).2.suffix.trans ih

theorem left_afterCalls_le (idle : p.depth = 0) (le : j ≤ k) :
    (p.afterCalls k).state.left ≤ (p.afterCalls j).state.left := by
  have shorter := (suffix_afterCalls idle le).length_le
  rw [State.length_input, State.length_input] at shorter
  omega

theorem monotone_position (idle : p.depth = 0) : Monotone fun k => (p.afterCalls k).position := by
  intro j k le
  have fewer := left_afterCalls_le idle le
  have before := position_afterCalls idle j
  have behind := position_afterCalls idle k
  change (p.afterCalls j).position ≤ (p.afterCalls k).position
  omega

/-- The tokens to come are those behind the ones that were read. -/
theorem drop_position (idle : p.depth = 0) (start : p.position = 0) (k : Nat) :
    p.state.input.drop (p.afterCalls k).position = (p.afterCalls k).state.input := by
  obtain ⟨read, hread⟩ : (p.afterCalls k).state.input <:+ p.state.input :=
    suffix_afterCalls idle (Nat.zero_le k)
  have total := position_afterCalls idle k
  have place : read.length = (p.afterCalls k).position := by
    have whole := congrArg List.length hread
    rw [List.length_append, State.length_input, State.length_input] at whole
    omega
  rw [← hread, ← place, List.drop_left]

/-- A parser that has not moved stands in front of the same tokens. -/
theorem input_eq_of_position_eq (idle : p.depth = 0) (le : j ≤ k)
    (same : (p.afterCalls j).position = (p.afterCalls k).position) :
    (p.afterCalls j).state.input = (p.afterCalls k).state.input := by
  have before := position_afterCalls idle j
  have behind := position_afterCalls idle k
  refine ((suffix_afterCalls idle le).eq_of_length ?_).symm
  rw [State.length_input, State.length_input]
  omega

theorem answer_eq_of_input_eq (idle : p.depth = 0)
    (same : (p.afterCalls j).state.input = (p.afterCalls k).state.input) :
    p.answer j = p.answer k ∧
      (p.afterCalls (j + 1)).state.input = (p.afterCalls (k + 1)).state.input :=
  (call_inStep idle j).2.unique (call_inStep idle k).2 same

/-- A call that does not move is followed by one that does not move either. -/
theorem position_settled (idle : p.depth = 0) (k : Nat)
    (same : (p.afterCalls k).position = (p.afterCalls (k + 1)).position) :
    (p.afterCalls (k + 1)).position = (p.afterCalls (k + 2)).position := by
  have input := input_eq_of_position_eq idle (Nat.le_succ k) same
  have next : (p.afterCalls (k + 1)).state.input.length =
      (p.afterCalls (k + 2)).state.input.length :=
    congrArg List.length (answer_eq_of_input_eq idle input).2
  have before := position_afterCalls idle (k + 1)
  have behind := position_afterCalls idle (k + 2)
  rw [State.length_input, State.length_input] at next
  omega

/-- Behind as many calls as there are tokens in front of the end mark the parser moves no more. -/
theorem answer_eq_of_le (idle : p.depth = 0) (start : p.position = 0) (hj : p.state.left ≤ j)
    (hk : p.state.left ≤ k) : p.answer j = p.answer k := by
  have settled {i : Nat} (hi : p.state.left ≤ i) :
      (p.afterCalls p.state.left).state.input = (p.afterCalls i).state.input := by
    refine input_eq_of_position_eq idle hi (Nat.stabilises_of_monotone (monotone_position idle)
      (fun m => ?_) (position_settled idle) hi).symm
    have bound := position_afterCalls idle m
    omega
  exact (answer_eq_of_input_eq idle ((settled hj).symm.trans (settled hk))).1

/-- The parser stands at the end of its input. -/
theorem next_of_answer_ok (idle : p.depth = 0) {q : Program} (h : p.answer k = .ok q) :
    (p.afterCalls (k + 1)).state.next.kind = .eof := by
  obtain ⟨t, ht, hinput⟩ := (call_inStep idle k).2.run
  rw [h] at ht
  rw [← Rule.next_of_head?_eq (congrArg List.head? hinput)]
  exact next_of_program ht

theorem answer_of_next_eof (idle : p.depth = 0) (ends : (p.afterCalls k).state.next.kind = .eof) :
    p.answer k = .ok ⟨[]⟩ := by
  obtain ⟨t, ht, -⟩ := (call_inStep idle k).2.run
  have empty : Derivation (p.afterCalls k).state.input ⟨[]⟩ 0 :=
    .intro (.nil (State.input_of_next_eof ends ▸ .none)) ends
  obtain ⟨t', ht'⟩ := reads_program empty (Nat.zero_le _) rfl
  exact (@Rule.result_inj _ (p.answer k) (.ok ⟨[]⟩) t t' (ht.symm.trans ht')).1

theorem answer_of_ok (idle : p.depth = 0) {q : Program} (h : p.answer j = .ok q) (later : j < k) :
    p.answer k = .ok ⟨[]⟩ := by
  have none := State.left_eq_zero_iff.2 (next_of_answer_ok idle h)
  have fewer : (p.afterCalls k).state.left ≤ (p.afterCalls (j + 1)).state.left :=
    left_afterCalls_le idle later
  exact answer_of_next_eof idle (State.left_eq_zero_iff.1 (by omega))

section kept

variable (tokens : List Token)

/-- The tokens to come are the first ones that are kept, up to the first end mark. -/
theorem input_prefix_kept : (ofTokens tokens).state.input <+: kept tokens :=
  ⟨_, (State.kept_eq_input_append tokens).symm⟩

theorem kind_ne_comment_of_mem_kept : ∀ t ∈ kept tokens, t.kind ≠ .comment := by
  intro t ht
  have inside {t : Token} (ht : t ∈ tokens.filter (·.kind ≠ .comment)) : t.kind ≠ .comment := by
    simpa using (List.mem_filter.1 ht).2
  rw [kept] at ht
  split at ht
  · exact inside ht
  · obtain ht | rfl := List.mem_append.1 ht |>.imp id List.mem_singleton.1
    · exact inside ht
    · simp

theorem findIdx_kept : (kept tokens).findIdx (·.kind = .eof) = (ofTokens tokens).state.left := by
  obtain ⟨behind, hkept⟩ := input_prefix_kept tokens
  have tokens_ne_eof := (ofTokens tokens).state.kind_ne_eof
  rw [← hkept, State.input, List.append_assoc, List.findIdx_append,
    List.findIdx_eq_length_of_false (by simpa using tokens_ne_eof), if_neg (Nat.lt_irrefl _),
    State.left_eq]
  simp [List.findIdx_cons, State.eof_kind]

theorem left_lt_length_kept : (ofTokens tokens).state.left < (kept tokens).length := by
  have longer := (input_prefix_kept tokens).length_le
  rwa [State.length_input] at longer

/-- No rule reads what is kept behind the first end mark: a call answers what parsing any tokens
with the same input answers. -/
theorem answer_eq_parse_of_input_eq (idle : p.depth = 0) {k : Nat}
    (same : (p.afterCalls k).state.input = (State.ofTokens tokens).input) :
    p.answer k = parse tokens := by
  rw [← program_ofTokens]
  exact ((call_inStep idle k).2.unique (program_inStep rfl).2 same).1

/-- A call answers what parsing the tokens from the parser's place on answers. -/
theorem answer_eq_parse (k : Nat) :
    (ofTokens tokens).answer k =
      parse ((kept tokens).drop ((ofTokens tokens).afterCalls k).position) := by
  have idle : (ofTokens tokens).depth = 0 := rfl
  obtain ⟨behind, hkept⟩ := input_prefix_kept tokens
  have inside :
      ((ofTokens tokens).afterCalls k).position ≤ (ofTokens tokens).state.input.length := by
    have total : _ = 0 + (ofTokens tokens).state.left := position_afterCalls idle k
    rw [State.length_input]
    omega
  have ahead : (kept tokens).drop ((ofTokens tokens).afterCalls k).position =
      ((ofTokens tokens).afterCalls k).state.input ++ behind := by
    rw [← hkept, List.drop_append_of_le_length inside, drop_position idle rfl k]
  have code : ∀ t ∈ ((ofTokens tokens).afterCalls k).state.input ++ behind, t.kind ≠ .comment := by
    rw [← ahead]
    exact fun t ht => kind_ne_comment_of_mem_kept tokens t (List.mem_of_mem_drop ht)
  rw [ahead]
  exact answer_eq_parse_of_input_eq _ idle (State.input_ofTokens_append _ code).symm

end kept

/-- Calls of one parser for a program. Between them no level of nesting is open, and the parser
stands at a token that it keeps, never in front of the place where it stood before and never behind
the first end mark; a call answers as parsing the tokens from there on does. Behind a program there
are only empty ones, and once there were as many calls as there are tokens all answers are the
same. -/
theorem calls_settle (tokens : List Token) :
    (∀ k, ((ofTokens tokens).afterCalls k).depth = 0 ∧
      ((ofTokens tokens).afterCalls k).position ≤ ((ofTokens tokens).afterCalls (k + 1)).position ∧
      ((ofTokens tokens).afterCalls k).position ≤ (kept tokens).findIdx (·.kind = .eof) ∧
      (ofTokens tokens).answer k =
        parse ((kept tokens).drop ((ofTokens tokens).afterCalls k).position)) ∧
    (∀ j k q, (ofTokens tokens).answer j = .ok q → j < k →
      (ofTokens tokens).answer k = .ok ⟨[]⟩) ∧
    ∀ j k, (kept tokens).length ≤ j + 1 → (kept tokens).length ≤ k + 1 →
      (ofTokens tokens).answer j = (ofTokens tokens).answer k := by
  have idle : (ofTokens tokens).depth = 0 := rfl
  have fits := left_lt_length_kept tokens
  refine ⟨fun k => ⟨depth_afterCalls idle k, monotone_position idle (Nat.le_succ k), ?_,
      answer_eq_parse tokens k⟩,
    fun j k q h later => answer_of_ok idle h later,
    fun j k hj hk => answer_eq_of_le idle rfl (by omega) (by omega)⟩
  have total : _ = 0 + (ofTokens tokens).state.left := position_afterCalls idle k
  rw [findIdx_kept]
  omega

/-- The tokens of `x =` and, on the next line, `y = 1`. -/
def unassigned : List Token :=
  [⟨.identifier, "x", ⟨1, 1⟩⟩, ⟨.symbol .assign, "=", ⟨1, 3⟩⟩, ⟨.newline, "\n", ⟨1, 4⟩⟩,
   ⟨.identifier, "y", ⟨2, 1⟩⟩, ⟨.symbol .assign, "=", ⟨2, 3⟩⟩, ⟨.integer, "1", ⟨2, 5⟩⟩,
   ⟨.eof, "", ⟨2, 6⟩⟩]

/-- The first call is refused in front of the newline, the second one reads the second line. -/
theorem calls_settle_unassigned :
    (kept unassigned).length = 7 ∧ ((ofTokens unassigned).answer 0).toBool = false ∧
    ((ofTokens unassigned).afterCalls 1).position = 2 ∧
    (∃ q, (ofTokens unassigned).answer 1 = .ok q ∧ q.statements.length = 1) ∧
    ((ofTokens unassigned).afterCalls 2).position = 6 ∧
    (ofTokens unassigned).answer 2 = .ok ⟨[]⟩ ∧
    (ofTokens unassigned).answer 6 = (ofTokens unassigned).answer 9 := by
  have seven : (kept unassigned).length = 7 := by decide +kernel
  have second : ((ofTokens unassigned).answer 1).toOption.map (·.statements.length) = some 1 := by
    decide +kernel
  obtain ⟨-, later, same⟩ := calls_settle unassigned
  cases answer : (ofTokens unassigned).answer 1 with
  | error _ => simp [answer, Except.toOption] at second
  | ok q =>
      rw [answer] at second
      exact ⟨seven, by decide +kernel, by decide +kernel, ⟨q, rfl, Option.some.inj second⟩,
        by decide +kernel, later 1 2 q answer (by decide),
        same 6 9 (by rw [seven]) (by rw [seven]; decide)⟩

end Parser

end PasoFrontEnd
