import PasoFrontEnd.Proofs.Grammar.Calls
import PasoFrontEnd.Proofs.Grammar.Likeness

/-!
Where the rules of the grammar look. A run of a rule is told step by step, each look at a token with
the state it is taken in, and without the checks that end a repetition at a round that reads
nothing: rounds read something, so the checks never fail and every run comes to its end. All looks
of a run are taken at tokens that the parser keeps, each at the place of the one before it or behind
that, and none behind the first end mark.
-/

namespace PasoFrontEnd.Grammar

namespace Rule

/-- A run of a rule, from one state to its end in another one, with the states in which it looks at
the next token. Repetitions go on for as long as there is something to repeat, whatever a round has
read. -/
inductive Run : {α : Type} → Rule α → State → List State → Except SyntaxError α → State → Prop
  | pure {α : Type} (a : α) (s : State) : Run (pure a) s [] (.ok a) s
  | throw {α : Type} (e : SyntaxError) (s : State) : Run (throw e : Rule α) s [] (.error e) s
  | noteBegun (t : Token) (s : State) :
      Run (noteBegun t) s [] (.ok ()) { s with begun := t :: s.begun }
  | peek (s : State) : Run peek s [s] (.ok s.next) s
  | advance (s : State) : Run advance s [s] (.ok ()) s.advance
  | unexpected {α : Type} (expected : List Token.Kind) (s : State) :
      Run (unexpected expected : Rule α) s [s]
        (.error ⟨.unexpectedToken expected s.next, s.next.location⟩) s
  | tooDeep {α : Type} (s : State) :
      Run (tooDeep : Rule α) s [s] (.error ⟨.nestingTooDeep maxNesting, s.next.location⟩) s
  | bind {α β : Type} {x : Rule α} {f : α → Rule β} {s s₁ s₂ : State} {looks looks' : List State}
      {a : α} {r : Except SyntaxError β} (first : Run x s looks (.ok a) s₁)
      (more : Run (f a) s₁ looks' r s₂) :
      Run (x >>= f) s (looks ++ looks') r s₂
  | bindError {α β : Type} {x : Rule α} {f : α → Rule β} {s s₁ : State} {looks : List State}
      {e : SyntaxError} (first : Run x s looks (.error e) s₁) : Run (x >>= f) s looks (.error e) s₁
  | noNewline {s : State} (kind : s.next.kind ≠ .newline) : Run skipNewlines s [s] (.ok ()) s
  | newline {s s₁ : State} {looks : List State} (kind : s.next.kind = .newline)
      (more : Run skipNewlines s.advance looks (.ok ()) s₁) :
      Run skipNewlines s (s :: looks) (.ok ()) s₁
  | noOperator {rank : Nat} {operand : Rule Expr} {left : Expr} {s : State}
      (none : (BinaryOp.ofKind? s.next.kind).filter (·.rank = rank) = none) :
      Run (joinedFrom rank operand left) s [s] (.ok left) s
  | operandError {rank : Nat} {operand : Rule Expr} {left : Expr} {s s₁ : State} {op : BinaryOp}
      {looks : List State} {e : SyntaxError}
      (operator : (BinaryOp.ofKind? s.next.kind).filter (·.rank = rank) = some op)
      (right : Run operand s.advance looks (.error e) s₁) :
      Run (joinedFrom rank operand left) s (s :: looks) (.error e) s₁
  | operand {rank : Nat} {operand : Rule Expr} {left e : Expr} {s s₁ s₂ : State} {op : BinaryOp}
      {looks looks' : List State} {r : Except SyntaxError Expr}
      (operator : (BinaryOp.ofKind? s.next.kind).filter (·.rank = rank) = some op)
      (right : Run operand s.advance looks (.ok e) s₁)
      (more : Run (joinedFrom rank operand (.operation op left e s.next.location)) s₁ looks' r s₂) :
      Run (joinedFrom rank operand left) s (s :: (looks ++ looks')) r s₂
  | stopped {α : Type} {stop : Token.Kind → Bool} {rule : Rule α} {s : State}
      (stops : stop s.next.kind) :
      Run (manyUntil stop rule) s [s] (.ok []) s
  | roundError {α : Type} {stop : Token.Kind → Bool} {rule : Rule α} {s s₁ : State}
      {looks : List State} {e : SyntaxError} (goesOn : ¬ stop s.next.kind)
      (first : Run rule s looks (.error e) s₁) :
      Run (manyUntil stop rule) s (s :: looks) (.error e) s₁
  | round {α : Type} {stop : Token.Kind → Bool} {rule : Rule α} {s s₁ s₂ : State}
      {looks looks' : List State} {a : α} {r : Except SyntaxError (List α)}
      (goesOn : ¬ stop s.next.kind) (first : Run rule s looks (.ok a) s₁)
      (more : Run (manyUntil stop rule) s₁ looks' r s₂) :
      Run (manyUntil stop rule) s (s :: (looks ++ looks')) (r.map (a :: ·)) s₂

end Rule

namespace State

/-- Some tokens were read between the two states, and no more than there were. -/
structure Ahead (s t : State) : Prop where
  suffix : t.input <:+ s.input
  position : t.position + t.left = s.position + s.left

variable {s t u : State}

theorem Ahead.refl (s : State) : s.Ahead s := ⟨List.suffix_rfl, rfl⟩

theorem Ahead.trans (h : s.Ahead t) (h' : t.Ahead u) : s.Ahead u :=
  ⟨h'.suffix.trans h.suffix, h'.position.trans h.position⟩

theorem Ahead.advance (s : State) : s.Ahead s.advance := by
  refine ⟨?_, (Rule.onward_advance s).position⟩
  by_cases ends : s.next.kind = .eof
  · exact Rule.input_advance_of_eof ends ▸ List.suffix_rfl
  · rw [input_of_next_ne_eof ends]
    exact List.suffix_cons _ _

theorem Ahead.noteBegun (s : State) (t : Token) : s.Ahead { s with begun := t :: s.begun } :=
  ⟨List.suffix_rfl, rfl⟩

theorem Ahead.left_le (h : s.Ahead t) : t.left ≤ s.left := by
  have shorter := h.suffix.length_le
  rw [length_input, length_input] at shorter
  omega

theorem Ahead.position_le (h : s.Ahead t) : s.position ≤ t.position := by
  have fewer := h.left_le
  have total := h.position
  omega

/-- The next token is the one at its place. -/
theorem Ahead.getElem?_input (h : s.Ahead t) (start : s.position = 0) :
    s.input[t.position]? = some t.next := by
  obtain ⟨front, whole⟩ := h.suffix
  obtain ⟨more, ahead⟩ := t.input_eq_next_cons
  have place : t.position = front.length := by
    have total := h.position
    have lengths := congrArg List.length whole
    rw [List.length_append, length_input, length_input] at lengths
    omega
  rw [← whole, ahead, place, List.getElem?_append_right (Nat.le_refl _), Nat.sub_self]
  rfl

theorem skipNewlines_of_ne (kind : s.next.kind ≠ .newline) : s.skipNewlines = s := by
  obtain ⟨tokens, eof, behind, begun, left, position, depth, hleft, heof, hkind⟩ := s
  cases tokens with
  | nil => rfl
  | cons t ts =>
      have notNewline : t.kind ≠ .newline := kind
      simp [skipNewlines, notNewline]

theorem skipNewlines_of_newline (kind : s.next.kind = .newline) :
    s.skipNewlines = s.advance.skipNewlines := by
  obtain ⟨tokens, eof, behind, begun, left, position, depth, hleft, heof, hkind⟩ := s
  cases tokens with
  | nil => exact absurd (heof.symm.trans kind) (by simp)
  | cons t ts =>
      have newline : t.kind = .newline := kind
      have some : left ≠ 0 := by simp [hleft]
      simp [skipNewlines, State.advance, newline, some]
      omega
end State

open State

/-- The looks of a run that goes from one state to another one: each behind those in front of it. -/
structure Between (s : State) (looks : List State) (s₁ : State) : Prop where
  whole : s.Ahead s₁
  inside : ∀ t ∈ looks, s.Ahead t ∧ t.Ahead s₁
  inOrder : looks.Pairwise State.Ahead

section between

variable {s s₁ s₂ : State} {looks looks' : List State}

theorem Between.of_ahead (h : s.Ahead s₁) : Between s [] s₁ := ⟨h, by simp, .nil⟩

theorem Between.look (h : Between s looks s₁) : Between s (s :: looks) s₁ :=
  ⟨h.whole, List.forall_mem_cons.2 ⟨⟨.refl s, h.whole⟩, h.inside⟩,
    .cons (fun t ht => (h.inside t ht).1) h.inOrder⟩

theorem Between.trans (h : Between s looks s₁) (h' : Between s₁ looks' s₂) :
    Between s (looks ++ looks') s₂ where
  whole := h.whole.trans h'.whole
  inside := List.forall_mem_append.2
    ⟨fun t ht => ⟨(h.inside t ht).1, (h.inside t ht).2.trans h'.whole⟩,
      fun t ht => ⟨h.whole.trans (h'.inside t ht).1, (h'.inside t ht).2⟩⟩
  inOrder := List.pairwise_append.2 ⟨h.inOrder, h'.inOrder,
    fun t ht u hu => (h.inside t ht).2.trans (h'.inside u hu).1⟩

end between

namespace Rule

section runs

variable {α β : Type} {x : Rule α} {f : α → Rule β} {s s₁ : State} {looks : List State}
  {r : Except SyntaxError α}

/-- A run moves by reading tokens one by one. -/
theorem Run.between (h : Run x s looks r s₁) : Between s looks s₁ := by
  induction h with
  | pure _ s | throw _ s => exact .of_ahead (.refl s)
  | noteBegun t s => exact .of_ahead (.noteBegun s t)
  | advance s => exact (Between.of_ahead (.advance s)).look
  | peek s | unexpected _ s | tooDeep s => exact (Between.of_ahead (.refl s)).look
  | noNewline | noOperator | stopped => exact (Between.of_ahead (.refl _)).look
  | bind _ _ ih ih' => exact ih.trans ih'
  | bindError _ ih => exact ih
  | newline _ _ ih | operandError _ _ ih => exact ((Between.of_ahead (.advance _)).trans ih).look
  | operand _ _ _ ih ih' => exact ((Between.of_ahead (.advance _)).trans (ih.trans ih')).look
  | roundError _ _ ih => exact ih.look
  | round _ _ _ ih ih' => exact (ih.trans ih').look

/-- However the rule ends, a run comes to that end. -/
def Runs (x : Rule α) : Prop :=
  ∀ ⦃s s₁ : State⦄ ⦃r : Except SyntaxError α⦄, x s = result r s₁ → ∃ looks, Run x s looks r s₁

theorem Runs.of_run {r : State → Except SyntaxError α} {end' : State → State}
    {looks : State → List State}
    (h : ∀ s, Run x s (looks s) (r s) (end' s)) (same : ∀ s, x s = result (r s) (end' s)) :
    Runs x := by
  intro s s₁ r₁ hrun
  obtain ⟨rfl, rfl⟩ := result_inj ((same s).symm.trans hrun)
  exact ⟨looks s, h s⟩

theorem Runs.bind (hx : Runs x) (hf : ∀ a, Runs (f a)) : Runs (x >>= f) := by
  intro s s₂ r h
  cases hs : x s with
  | ok a s₁ =>
      obtain ⟨looks, first⟩ := @hx s s₁ (.ok a) hs
      obtain ⟨looks', more⟩ := hf a ((bind_of_ok hs).symm.trans h)
      exact ⟨looks ++ looks', first.bind more⟩
  | error e s₁ =>
      obtain ⟨rfl, rfl⟩ := result_inj ((bind_of_error hs).symm.trans h)
      obtain ⟨looks, first⟩ := @hx s s₁ (.error e) hs
      exact ⟨looks, first.bindError⟩

theorem Runs.pure (a : α) : Runs (Pure.pure a) := .of_run (fun s => .pure a s) fun _ => rfl

theorem Runs.throw (e : SyntaxError) : Runs (throw e : Rule α) :=
  .of_run (fun s => .throw e s) fun _ => rfl

theorem Runs.peek : Runs peek := .of_run .peek fun _ => rfl

theorem Runs.advance : Runs advance := .of_run .advance fun _ => rfl

theorem Runs.noteBegun (t : Token) : Runs (noteBegun t) := .of_run (.noteBegun t) fun _ => rfl

theorem Runs.unexpected (expected : List Token.Kind) : Runs (unexpected expected : Rule α) :=
  .of_run (.unexpected expected) fun _ => rfl

theorem Runs.tooDeep : Runs (tooDeep : Rule α) := .of_run .tooDeep fun _ => rfl

theorem Runs.expect (kind : Token.Kind) : Runs (expect kind) := by
  refine .bind .peek fun t => ?_
  split
  · exact .bind .advance fun _ => .pure t
  · exact .unexpected [kind]

theorem Runs.skipNewlines : Runs skipNewlines := by
  intro s s₁ r h
  obtain ⟨rfl, rfl⟩ := @result_inj _ (.ok ()) _ _ _ h
  clear h
  induction more : s.tokens generalizing s with
  | nil =>
      have kind : s.next.kind ≠ .newline := by simp [State.next, more, s.eof_kind]
      exact ⟨[s], (skipNewlines_of_ne kind).symm ▸ .noNewline kind⟩
  | cons t ts ih =>
      by_cases kind : s.next.kind = .newline
      · obtain ⟨looks, run⟩ := ih (s := s.advance) (by simp [State.advance, more])
        exact ⟨s :: looks, .newline kind (skipNewlines_of_newline kind ▸ run)⟩
      · exact ⟨[s], (skipNewlines_of_ne kind).symm ▸ .noNewline kind⟩

end runs

section repetitions

variable {α : Type} {rule : Rule α} {stop : Token.Kind → Bool} {rank : Nat} {operand : Rule Expr}

/-- An operator is a token, so a round never reads nothing. -/
theorem joinedFrom_runs (ho : Runs operand) (left : Expr) :
    Runs (joinedFrom rank operand left) := by
  intro s s₁ r h
  fun_induction joinedFrom rank operand left s with
  | case1 left s none =>
      obtain ⟨rfl, rfl⟩ := @result_inj _ (.ok left) _ _ _ h
      exact ⟨[s], .noOperator none⟩
  | case2 left s op operator e after hright =>
      obtain ⟨rfl, rfl⟩ := @result_inj _ (.error e) _ _ _ h
      obtain ⟨looks, right⟩ := @ho _ _ (.error e) hright
      exact ⟨s :: looks, .operandError operator right⟩
  | case3 left s op operator right after hright whole less ih =>
      obtain ⟨looks, first⟩ := @ho _ _ (.ok right) hright
      obtain ⟨looks', more⟩ := ih h
      exact ⟨s :: (looks ++ looks'), .operand operator first more⟩
  | case4 left s op operator right after hright whole notLess =>
      obtain ⟨looks, first⟩ := @ho _ _ (.ok right) hright
      have kind : s.next.kind ≠ .eof := by
        rw [BinaryOp.kind_eq_of_ofKind? (Option.filter_eq_some_iff.1 operator).1]
        exact kind_ne_eof op
      have read := congrArg List.length (State.input_of_next_ne_eof kind)
      have fewer := first.between.whole.left_le
      rw [List.length_cons, State.length_input, State.length_input] at read
      omega

theorem manyUntil_runs (hr : Runs rule) (advances : rule.Advances) :
    Runs (manyUntil stop rule) := by
  intro s s₁ r h
  fun_induction manyUntil stop rule s generalizing s₁ r with
  | case1 s stops =>
      obtain ⟨rfl, rfl⟩ := @result_inj _ (.ok []) _ _ _ h
      exact ⟨[s], .stopped stops⟩
  | case2 s goesOn e after hrule =>
      obtain ⟨rfl, rfl⟩ := @result_inj _ (.error e) _ _ _ h
      obtain ⟨looks, first⟩ := @hr _ _ (.error e) hrule
      exact ⟨s :: looks, .roundError goesOn first⟩
  | case3 s goesOn a after hrule less e last hmore ih =>
      obtain ⟨rfl, rfl⟩ := @result_inj _ (.error e) _ _ _ h
      obtain ⟨looks, first⟩ := @hr _ _ (.ok a) hrule
      obtain ⟨looks', more⟩ := @ih _ (.error e) hmore
      exact ⟨s :: (looks ++ looks'), .round goesOn first more⟩
  | case4 s goesOn a after hrule less as last hmore ih =>
      obtain ⟨rfl, rfl⟩ := @result_inj _ (.ok (a :: as)) _ _ _ h
      obtain ⟨looks, first⟩ := @hr _ _ (.ok a) hrule
      obtain ⟨looks', more⟩ := @ih _ (.ok as) hmore
      exact ⟨s :: (looks ++ looks'), .round goesOn first more⟩
  | case5 s goesOn a after hrule notLess => exact absurd (advances hrule) notLess

end repetitions

end Rule

open Rule

section rules

variable {expr operand signed group : Rule Expr} {stmt : Rule Stmt} {body : Rule Block}

theorem operation_runs (ho : Runs operand) (rank : Nat) : Runs (operation operand rank) := by
  induction rank with
  | zero => exact ho
  | succ rank ih => exact .bind ih (joinedFrom_runs ih)

theorem unaryOver_runs (hs : Runs signed) (hg : Runs group) : Runs (unaryOver signed group) := by
  refine .bind .peek fun t => ?_
  split
  · exact .bind .advance fun _ => .bind hs fun operand => .pure _
  · exact .bind .advance fun _ => .bind hg fun inner => .bind (.expect _) fun _ => .pure inner
  · exact .bind .advance fun _ => .pure _
  · split
    · exact .bind .advance fun _ => .pure _
    · exact .throw _
    · exact .unexpected _

theorem unary_runs (depth : Nat) : Runs (unary depth) := by
  induction depth with
  | zero => exact unaryOver_runs .tooDeep .tooDeep
  | succ depth ih => exact unaryOver_runs ih (operation_runs ih loosest)

theorem expression_runs (depth : Nat) : Runs (expression depth) := by
  cases depth with
  | zero => exact .tooDeep
  | succ depth => exact operation_runs (unary_runs depth) loosest

theorem lineEnd_runs : Runs lineEnd := by
  refine .bind .peek fun t => ?_
  split
  · exact .advance
  · exact .pure ()
  · exact .pure ()
  · exact .unexpected _

theorem condition_runs (he : Runs expr) : Runs (condition expr) :=
  .bind (.expect _) fun _ => .bind he fun e => .bind (.expect _) fun _ => .pure e

theorem block_runs (hb : Runs body) : Runs (block body) :=
  .bind (.expect _) fun _ => .bind .skipNewlines fun _ => .bind (.expect _) fun _ => hb

theorem statements_runs (hs : Runs stmt) (advances : (spaced stmt).Advances)
    (stop : Token.Kind → Bool) :
    Runs (statements stop stmt) :=
  .bind .skipNewlines fun _ =>
    manyUntil_runs (.bind hs fun a => .bind .skipNewlines fun _ => .pure a) advances

theorem blockBody_runs (hs : Runs stmt) (advances : (spaced stmt).Advances) :
    Runs (blockBody stmt) := by
  refine .bind (statements_runs hs advances _) fun b => ?_
  split
  · exact .unexpected _
  · exact .bind (.expect _) fun _ => .pure b

theorem otherwise?_runs (hb : Runs body) : Runs (otherwise? body) := by
  refine .bind .peek fun t => ?_
  split
  · exact .bind .advance fun _ => .bind (block_runs hb) fun _ => .pure _
  · exact .bind .advance fun _ => .bind (block_runs hb) fun _ => .pure _
  · exact .pure none

theorem initializer?_runs (he : Runs expr) : Runs (initializer? expr) := by
  refine .bind .peek fun t => ?_
  split
  · exact .bind .advance fun _ => .bind he fun _ => .pure _
  · exact .pure none

theorem statementOver_runs (he : Runs expr) (hb : Runs body) : Runs (statementOver expr body) := by
  have hc := condition_runs he
  have hblock := block_runs hb
  refine .bind .peek fun t => .bind (.noteBegun t) fun _ => ?_
  split
  case h_1 =>
    exact .bind .advance fun _ => .bind hc fun _ => .bind hblock fun _ =>
      .bind (otherwise?_runs hb) fun _ => .pure _
  case h_2 => exact .bind .advance fun _ => .bind hc fun _ => .bind hblock fun _ => .pure _
  case h_3 =>
    exact .bind .advance fun _ => .bind hblock fun _ => .bind (.expect _) fun _ =>
      .bind hc fun _ => .bind lineEnd_runs fun _ => .pure _
  case h_4 =>
    exact .bind .advance fun _ => .bind he fun _ => .bind lineEnd_runs fun _ => .pure _
  case h_5 =>
    exact .bind .advance fun _ => .bind (.expect _) fun _ => .bind he fun _ =>
      .bind lineEnd_runs fun _ => .pure _
  case h_6 =>
    exact .bind .advance fun _ => .bind (.expect _) fun _ => .bind (initializer?_runs he) fun _ =>
      .bind lineEnd_runs fun _ => .pure _
  case h_7 => exact .unexpected _

theorem statement_runs (depth : Nat) : Runs (statement depth) := by
  induction depth with
  | zero => exact statementOver_runs (expression_runs 0) .tooDeep
  | succ depth ih =>
      exact statementOver_runs (expression_runs _)
        (blockBody_runs ih (statement_sound depth).advances_spaced)

theorem program_runs : Runs program :=
  .bind (statements_runs (statement_runs _) (statement_sound _).advances_spaced _) fun _ => .pure _

end rules

section endings

variable {α : Type} {x : Rule α}

/-- From wherever it begins, the rule comes to an end by looking at tokens one behind the other, and
where it ends with a value it has moved. -/
def Rule.Forward (x : Rule α) : Prop :=
  ∀ s : State, ∃ (looks : List State) (r : Except SyntaxError α) (s₁ : State), x s = result r s₁ ∧
    Run x s looks r s₁ ∧ Between s looks s₁ ∧ (r.isOk → s.position < s₁.position)

theorem Rule.Runs.exists_run (hx : Runs x) (s : State) :
    ∃ looks r s₁, x s = result r s₁ ∧ Run x s looks r s₁ := by
  cases hs : x s with
  | ok a s₁ =>
      obtain ⟨looks, run⟩ := @hx s s₁ (.ok a) hs
      exact ⟨looks, .ok a, s₁, rfl, run⟩
  | error e s₁ =>
      obtain ⟨looks, run⟩ := @hx s s₁ (.error e) hs
      exact ⟨looks, .error e, s₁, rfl, run⟩

theorem Rule.Runs.forward (hx : Runs x) (advances : x.Advances) : x.Forward := by
  intro s
  obtain ⟨looks, r, s₁, same, run⟩ := hx.exists_run s
  refine ⟨looks, r, s₁, same, run, run.between, fun value => ?_⟩
  cases r with
  | error _ => contradiction
  | ok a =>
      have fewer := advances same
      have total := run.between.whole.position
      omega

theorem statement_forward (depth : Nat) : (statement depth).Forward :=
  (statement_runs depth).forward ((statement_sound depth).advances Statement.length_lt)

theorem block_forward (depth : Nat) : (block (blockBody (statement depth))).Forward :=
  (block_runs (blockBody_runs (statement_runs depth)
    (statement_sound depth).advances_spaced)).forward
    ((block_sound (blockBody_sound (statement_sound depth))).advances IndentedBlock.length_lt)

theorem expression_forward (depth : Nat) : (expression depth).Forward :=
  (expression_runs depth).forward (expression_sound depth).advances_expression

/-- Tokens behind an end mark are no part of the input. -/
theorem State.input_ofTokens_append_eof {e : Token} (ends : e.kind = .eof)
    (front behind behind' : List Token) :
    (State.ofTokens (front ++ e :: behind)).input =
      (State.ofTokens (front ++ e :: behind')).input := by
  have keeps (behind : List Token) : ∃ more, Parser.kept (front ++ e :: behind) =
      front.filter (·.kind ≠ .comment) ++ e :: more := by
    obtain ⟨more, whole⟩ := filter_prefix_kept (front ++ e :: behind)
    rw [List.filter_append, List.filter_cons_of_pos (by simp [ends]), List.append_assoc,
      List.cons_append] at whole
    exact ⟨_, whole.symm⟩
  obtain ⟨_, kept⟩ := keeps behind
  obtain ⟨_, kept'⟩ := keeps behind'
  exact State.input_ofTokens_congr kept kept' ends

end endings

/-- Parsing ends on any tokens, and all that it looks at are tokens that are kept, one behind the
other and none behind the first end mark. The rules for statements, blocks and expressions end
wherever they begin, and where they find what they are for they have read a token at least. No token
behind an end mark makes a difference. -/
theorem parse_looks_inside (tokens : List Token) :
    (∃ (looks : List State) (last : State),
      program (.ofTokens tokens) = result (parse tokens) last ∧
      Run program (.ofTokens tokens) looks (parse tokens) last ∧
      looks.Pairwise (·.position ≤ ·.position) ∧
      ∀ s ∈ last :: looks, s.position ≤ last.position ∧
        s.position ≤ (Parser.kept tokens).findIdx (·.kind = .eof) ∧
        (Parser.kept tokens)[s.position]? = some s.next) ∧
    (∀ depth, (statement depth).Forward ∧ (block (blockBody (statement depth))).Forward ∧
      (expression depth).Forward) ∧
    ∀ {front behind : List Token} {e : Token}, tokens = front ++ e :: behind → e.kind = .eof →
      ∀ behind', parse (front ++ e :: behind') = parse tokens := by
  refine ⟨?_, fun depth => ⟨statement_forward depth, block_forward depth, expression_forward depth⟩,
    ?_⟩
  · obtain ⟨looks, r, last, same, run⟩ := program_runs.exists_run (.ofTokens tokens)
    have answer : parse tokens = r := by
      rw [parse, same]
      cases r <;> rfl
    have between := run.between
    refine ⟨looks, last, answer ▸ same, answer ▸ run, between.inOrder.imp State.Ahead.position_le,
      fun s hs => ?_⟩
    obtain ⟨ahead, behind⟩ : State.Ahead (.ofTokens tokens) s ∧ s.Ahead last := by
      obtain rfl | hs := List.mem_cons.1 hs
      · exact ⟨between.whole, .refl s⟩
      · exact between.inside s hs
    refine ⟨behind.position_le, ?_, ?_⟩
    · have total : s.position + s.left = 0 + (State.ofTokens tokens).left := ahead.position
      rw [Parser.findIdx_kept]
      change _ ≤ (State.ofTokens tokens).left
      omega
    · obtain ⟨more, whole⟩ := Parser.input_prefix_kept tokens
      have here := ahead.getElem?_input rfl
      rw [← whole]
      exact List.getElem?_append_left (List.getElem?_eq_some_iff.1 here).1 ▸ here
  · rintro front behind e rfl ends behind'
    have same := State.input_ofTokens_append_eof ends front behind' behind
    rw [← Parser.program_ofTokens]
    exact Parser.answer_eq_parse_of_input_eq _ (k := 0) rfl same

/-- The tokens of a comment and of `x = 1`, and behind the end mark two block markers in the wrong
order. -/
def halted : List Token :=
  [⟨.comment, " x", ⟨1, 1⟩⟩, ⟨.identifier, "x", ⟨2, 1⟩⟩, ⟨.symbol .assign, "=", ⟨2, 3⟩⟩,
   ⟨.integer, "1", ⟨2, 5⟩⟩, ⟨.eof, "", ⟨2, 6⟩⟩, ⟨.dedent, "", ⟨3, 1⟩⟩, ⟨.indent, "", ⟨3, 1⟩⟩]

/-- Three tokens and the end mark behind them are looked at, and the markers could be missing. -/
theorem parse_looks_inside_halted :
    (Parser.kept halted).length = 7 ∧ (parse halted).isOk ∧
    (∃ (looks : List State) (last : State),
      Run program (.ofTokens halted) looks (parse halted) last ∧
      ∀ s ∈ looks, s.position ≤ 3) ∧
    (∃ a s₁, statement 1 (.ofTokens halted) = .ok a s₁ ∧ 0 < s₁.position) ∧
    parse (halted.take 5) = parse halted := by
  obtain ⟨⟨looks, last, -, run, -, inside⟩, forward, behind⟩ := parse_looks_inside halted
  have eof : (Parser.kept halted).findIdx (·.kind = .eof) = 3 := by decide +kernel
  refine ⟨by decide +kernel, by decide +kernel, ⟨looks, last, run, fun s hs => ?_⟩, ?_,
    @behind (halted.take 4) (halted.drop 5) ⟨.eof, "", ⟨2, 6⟩⟩ rfl rfl []⟩
  · exact eof ▸ (inside s (List.mem_cons_of_mem _ hs)).2.1
  · obtain ⟨_, r, s₁, same, -, -, moved⟩ := (forward 1).1 (.ofTokens halted)
    cases r with
    | ok a => exact ⟨a, s₁, same, moved rfl⟩
    | error e =>
        have value : (match statement 1 (.ofTokens halted) with
            | .ok .. => true
            | .error .. => false) = true := by decide +kernel
        rw [same] at value
        contradiction

end PasoFrontEnd.Grammar
