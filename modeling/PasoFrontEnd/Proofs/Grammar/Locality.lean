import PasoFrontEnd.Proofs.Grammar.Span

/-!
The rules of the grammar look at no token behind the one they stop at. On two inputs that are alike
up to that token a rule answers the same, or refuses the same token for the same reason, and more
room for nesting changes nothing unless the room was used up. They leave the open levels of nesting
as they were, and what they have read and what is to come always add up.
-/

namespace PasoFrontEnd.Grammar

namespace Rule

variable {α β : Type}

/-- The end of a run, with a value or an error and the state that is left. -/
def result (r : Except SyntaxError α) (s : State) : EStateM.Result SyntaxError State α :=
  match r with
  | .ok a => .ok a s
  | .error e => .error e s

theorem result_inj {r r' : Except SyntaxError α} {s s' : State} (h : result r s = result r' s') :
    r = r' ∧ s = s' := by
  cases r <;> cases r' <;> cases h <;> exact ⟨rfl, rfl⟩

/-- The run ended with a value, or with an error of the given kind. -/
def Settled (E : SyntaxError → Prop) : Except SyntaxError α → Prop
  | .ok _ => True
  | .error e => E e

/-- What every run leaves as it was: the open levels of nesting, and the number of the tokens that
have been read and are to come. -/
structure Onward (s s₁ : State) : Prop where
  depth : s₁.depth = s.depth
  position : s₁.position + s₁.left = s.position + s.left

/-- On every input that begins with the tokens between the two states and the next token of the
second one, the rule ends as given, behind those tokens. -/
def EndsAlike (x : Rule α) (s s₁ : State) (r : Except SyntaxError α) : Prop :=
  ∃ front, s.input = front ++ s₁.input ∧
    ∀ ⦃t : State⦄ ⦃rest : List Token⦄, t.input = front ++ rest → rest.head? = s₁.input.head? →
      ∃ t₁, x t = result r t₁ ∧ t₁.input = rest

/-- What the first rule settles at a depth of nesting that counts, the second one settles in the
same way on every input that is alike as far as the first rule looks, at any depth. -/
def InStep (D : Nat → Prop) (E : SyntaxError → Prop) (x x' : Rule α) : Prop :=
  ∀ ⦃s s₁ : State⦄ ⦃r : Except SyntaxError α⦄, D s.depth → x s = result r s₁ → Settled E r →
    Onward s s₁ ∧ EndsAlike x' s s₁ r

/-- A token that could not stand where it stands is refused by both rules. -/
abbrev Repeats (x x' : Rule α) : Prop := InStep (fun _ => True) (·.found?.isSome) x x'

variable {D : Nat → Prop} {E : SyntaxError → Prop}

theorem Onward.trans {s s₁ s₂ : State} (h : Onward s s₁) (h' : Onward s₁ s₂) : Onward s s₂ :=
  ⟨h'.depth.trans h.depth, h'.position.trans h.position⟩

theorem onward_advance (s : State) : Onward s s.advance := by
  refine ⟨rfl, ?_⟩
  simp only [State.advance]
  split <;> omega

theorem onward_skipNewlines (s : State) : Onward s s.skipNewlines := by
  have shorter := (s.tokens.takeWhile_prefix (p := (·.kind = .newline))).length_le
  rw [← s.left_eq] at shorter
  refine ⟨rfl, ?_⟩
  simp only [State.skipNewlines]
  omega

theorem bind_of_error {x : Rule α} {f : α → Rule β} {s s₁ : State} {e : SyntaxError}
    (h : x s = .error e s₁) : (x >>= f) s = result (.error e) s₁ := by
  change EStateM.bind x f s = _
  rw [EStateM.bind, h]
  rfl

theorem next_of_head?_eq {s t : State} (h : t.input.head? = s.input.head?) : t.next = s.next := by
  obtain ⟨ts, hts⟩ := s.input_eq_next_cons
  obtain ⟨us, hus⟩ := t.input_eq_next_cons
  rw [hts, hus] at h
  exact Option.some.inj h

theorem head?_append_of_head?_eq {front ts us : List Token} (h : ts.head? = us.head?) :
    (front ++ ts).head? = (front ++ us).head? := by
  rw [List.head?_append, List.head?_append, h]

/-- A rule that only looks at the next token. -/
theorem InStep.of_next {x x' : Rule α} {r : Token → Except SyntaxError α}
    (hx : ∀ s, x s = result (r s.next) s) (hx' : ∀ s, x' s = result (r s.next) s) :
    InStep D E x x' := by
  intro s s₁ r₁ _ h _
  obtain ⟨rfl, rfl⟩ := result_inj ((hx s).symm.trans h)
  refine ⟨⟨rfl, rfl⟩, [], rfl, fun t rest ht hrest => ⟨t, ?_, ht⟩⟩
  rw [hx', next_of_head?_eq ((congrArg List.head? ht).trans hrest)]

theorem InStep.bind {x x' : Rule α} {f f' : α → Rule β} (hx : InStep D E x x')
    (hf : ∀ a, InStep D E (f a) (f' a)) : InStep D E (x >>= f) (x' >>= f') := by
  intro s s₂ r counts h settled
  cases hs : x s with
  | ok a s₁ =>
      have hr : f a s₁ = result r s₂ := (bind_of_ok hs).symm.trans h
      obtain ⟨onward₁, front₁, hfront₁, again₁⟩ := @hx s s₁ (.ok a) counts hs trivial
      obtain ⟨onward₂, front₂, hfront₂, again₂⟩ := hf a (onward₁.depth ▸ counts) hr settled
      refine ⟨onward₁.trans onward₂, front₁ ++ front₂,
        by rw [List.append_assoc, ← hfront₂, hfront₁], ?_⟩
      intro t rest ht hrest
      rw [List.append_assoc] at ht
      obtain ⟨t₁, ht₁, hinput₁⟩ := again₁ ht (hfront₂ ▸ head?_append_of_head?_eq hrest)
      obtain ⟨t₂, ht₂, hinput₂⟩ := again₂ hinput₁ hrest
      exact ⟨t₂, (bind_of_ok ht₁).trans ht₂, hinput₂⟩
  | error e s₁ =>
      obtain ⟨rfl, rfl⟩ := result_inj ((bind_of_error hs).symm.trans h)
      obtain ⟨onward, front, hfront, again⟩ := @hx s s₁ (.error e) counts hs settled
      refine ⟨onward, front, hfront, fun t rest ht hrest => ?_⟩
      obtain ⟨t₁, ht₁, hinput⟩ := again ht hrest
      exact ⟨t₁, bind_of_error ht₁, hinput⟩

theorem InStep.pure (a : α) : InStep D E (Pure.pure a) (Pure.pure a) :=
  .of_next (r := fun _ => .ok a) (fun _ => rfl) (fun _ => rfl)

theorem InStep.throw (e : SyntaxError) : InStep D E (throw e : Rule α) (throw e) :=
  .of_next (r := fun _ => .error e) (fun _ => rfl) (fun _ => rfl)

theorem InStep.peek : InStep D E peek peek :=
  .of_next (r := fun t => .ok t) (fun _ => rfl) (fun _ => rfl)

theorem InStep.unexpected (expected : List Token.Kind) :
    InStep D E (unexpected expected : Rule α) (Grammar.unexpected expected) :=
  .of_next (r := fun t => .error ⟨.unexpectedToken expected t, t.location⟩) (fun _ => rfl)
    (fun _ => rfl)

theorem InStep.tooDeep : InStep D E (tooDeep : Rule α) Grammar.tooDeep :=
  .of_next (r := fun t => .error ⟨.nestingTooDeep maxNesting, t.location⟩) (fun _ => rfl)
    (fun _ => rfl)

/-- With more room nothing has to be repeated of a rule that has none. -/
theorem Repeats.tooDeep {x' : Rule α} : Repeats tooDeep x' := by
  intro s s₁ r _ h settled
  obtain ⟨rfl, -⟩ := @result_inj _ (.error ⟨.nestingTooDeep maxNesting, s.next.location⟩) _ s _ h
  contradiction

theorem InStep.noteBegun (t : Token) : InStep D E (noteBegun t) (noteBegun t) := by
  intro s s₁ r _ h _
  obtain ⟨rfl, rfl⟩ := @result_inj _ (.ok ()) _ _ _ h
  exact ⟨⟨rfl, rfl⟩, [], rfl, fun u rest hu _ => ⟨{ u with begun := t :: u.begun }, rfl, hu⟩⟩

theorem input_advance_of_eof {s : State} (h : s.next.kind = .eof) : s.advance.input = s.input := by
  cases ht : s.tokens with
  | nil => simp [State.input, State.advance, ht]
  | cons t ts => exact absurd (by simpa [State.next, ht] using h) (s.kind_ne_eof t (by simp [ht]))

theorem InStep.advance : InStep D E advance advance := by
  intro s s₁ r _ h _
  obtain ⟨rfl, rfl⟩ := @result_inj _ (.ok ()) _ _ _ h
  refine ⟨onward_advance s, ?_⟩
  by_cases kind : s.next.kind = .eof
  · refine ⟨[], (input_advance_of_eof kind).symm, fun t rest ht hrest => ⟨t.advance, rfl, ?_⟩⟩
    rw [input_advance_of_eof kind] at hrest
    have same := next_of_head?_eq ((congrArg List.head? ht).trans hrest)
    rw [input_advance_of_eof (by rw [same, kind]), ht]
    rfl
  · refine ⟨[s.next], State.input_of_next_ne_eof kind, fun t rest ht _ => ⟨t.advance, rfl, ?_⟩⟩
    exact State.input_advance ht kind

theorem InStep.skipNewlines : InStep D E skipNewlines skipNewlines := by
  intro s s₁ r _ h _
  obtain ⟨rfl, rfl⟩ := @result_inj _ (.ok ()) _ _ _ h
  obtain ⟨front, hfront, -, newlines⟩ := s.newlines_skipNewlines.detaches
  refine ⟨onward_skipNewlines s, front, hfront, fun t rest ht hrest => ⟨t.skipNewlines, rfl, ?_⟩⟩
  obtain ⟨ts, hts⟩ := s.skipNewlines.input_eq_next_cons
  rw [hts] at hrest
  obtain ⟨us, rfl⟩ := List.head?_eq_some_iff.1 hrest
  exact State.input_skipNewlines (ht ▸ newlines _ trivial) s.next_skipNewlines_ne_newline

theorem InStep.expect (kind : Token.Kind) : InStep D E (expect kind) (Grammar.expect kind) := by
  refine .bind .peek fun t => ?_
  split
  · exact .bind .advance fun _ => .pure t
  · exact .unexpected [kind]

end Rule

open Rule

/-- Fewer tokens are to come exactly if some have been read. -/
theorem left_lt_iff {s s₁ : State} {front : List Token} (h : s.input = front ++ s₁.input) :
    s₁.left < s.left ↔ front ≠ [] := by
  have hlen := congrArg List.length h
  simp only [List.length_append, State.length_input] at hlen
  rw [← List.length_pos_iff]
  omega

variable {D : Nat → Prop} {E : SyntaxError → Prop}

theorem joinedFrom_inStep {rank : Nat} {operand operand' : Rule Expr}
    (ho : InStep D E operand operand') (left : Expr) :
    InStep D E (joinedFrom rank operand left) (joinedFrom rank operand' left) := by
  intro s s₁ r counts h settled
  have input_of_operator {s : State} {op : BinaryOp}
      (hop : (BinaryOp.ofKind? s.next.kind).filter (·.rank = rank) = some op) :
      s.next.kind ≠ .eof := by
    rw [BinaryOp.kind_eq_of_ofKind? (Option.filter_eq_some_iff.1 hop).1]
    exact kind_ne_eof op
  fun_induction joinedFrom rank operand left s with
  | case1 left s hnone =>
      obtain ⟨rfl, rfl⟩ := @result_inj _ (.ok left) _ _ _ h
      refine ⟨⟨rfl, rfl⟩, [], rfl, fun t rest ht hrest => ⟨t, ?_, ht⟩⟩
      rw [joinedFrom, next_of_head?_eq ((congrArg List.head? ht).trans hrest), hnone]
      rfl
  | case2 left s op hop e after hright =>
      obtain ⟨rfl, rfl⟩ := @result_inj _ (.error e) _ _ _ h
      obtain ⟨onward, front, hfront, again⟩ := @ho s.advance _ (.error e) counts hright settled
      have hinput := State.input_of_next_ne_eof (input_of_operator hop)
      refine ⟨(onward_advance s).trans onward, s.next :: front, hinput.trans (congrArg _ hfront),
        fun t rest ht hrest => ?_⟩
      obtain ⟨t₁, ht₁, hrest₁⟩ := again (State.input_advance ht (input_of_operator hop)) hrest
      refine ⟨t₁, ?_, hrest₁⟩
      rw [joinedFrom, State.next_eq_of_input ht]
      simp only [hop, ht₁, result]
  | case3 left s op hop right after hright whole less ih =>
      obtain ⟨onward, front, hfront, again⟩ := @ho s.advance _ (.ok right) counts hright trivial
      have onward := (onward_advance s).trans onward
      obtain ⟨onward', front', hfront', again'⟩ := ih (onward.depth ▸ counts) h
      have hinput := State.input_of_next_ne_eof (input_of_operator hop)
      refine ⟨onward.trans onward', s.next :: (front ++ front'), ?_, fun t rest ht hrest => ?_⟩
      · rw [hinput, hfront, hfront', List.cons_append, List.append_assoc]
      · rw [List.cons_append, List.append_assoc] at ht
        obtain ⟨t₁, ht₁, hrest₁⟩ := again (State.input_advance ht (input_of_operator hop))
          (hfront' ▸ head?_append_of_head?_eq hrest)
        obtain ⟨t₂, ht₂, hrest₂⟩ := again' hrest₁ hrest
        refine ⟨t₂, ?_, hrest₂⟩
        rw [joinedFrom, State.next_eq_of_input ht]
        simp only [hop, ht₁, result]
        have hlt : t₁.left < t.left :=
          (left_lt_iff (ht.trans (congrArg _ (congrArg _ hrest₁.symm)))).2 (List.cons_ne_nil _ _)
        rw [if_pos hlt]
        exact ht₂
  | case4 left s op hop right after hright whole notLess =>
      obtain ⟨-, front, hfront, -⟩ := @ho s.advance _ (.ok right) counts hright trivial
      have hinput := State.input_of_next_ne_eof (input_of_operator hop)
      exact absurd ((left_lt_iff (hinput.trans (congrArg _ hfront))).2 (List.cons_ne_nil _ _))
        notLess

theorem operation_inStep {operand operand' : Rule Expr} (ho : InStep D E operand operand')
    (rank : Nat) : InStep D E (operation operand rank) (operation operand' rank) := by
  induction rank with
  | zero => exact ho
  | succ rank ih => exact .bind ih (joinedFrom_inStep ih)

theorem unaryOver_inStep {signed signed' group group' : Rule Expr} (hs : InStep D E signed signed')
    (hg : InStep D E group group') :
    InStep D E (unaryOver signed group) (unaryOver signed' group') := by
  refine .bind .peek fun t => ?_
  split
  · exact .bind .advance fun _ => .bind hs fun operand => .pure _
  · exact .bind .advance fun _ => .bind hg fun inner => .bind (.expect _) fun _ => .pure inner
  · exact .bind .advance fun _ => .pure _
  · split
    · exact .bind .advance fun _ => .pure _
    · exact .throw _
    · exact .unexpected _

theorem unary_repeats {depth depth' : Nat} (le : depth ≤ depth') :
    Repeats (unary depth) (unary depth') := by
  induction depth generalizing depth' with
  | zero => cases depth' <;> exact unaryOver_inStep Repeats.tooDeep Repeats.tooDeep
  | succ depth ih =>
      cases depth' with
      | zero => exact absurd le (Nat.not_succ_le_zero _)
      | succ depth' =>
          have inner := ih (Nat.le_of_succ_le_succ le)
          exact unaryOver_inStep inner (operation_inStep inner loosest)

theorem expression_repeats {depth depth' : Nat} (le : depth ≤ depth') :
    Repeats (expression depth) (expression depth') := by
  cases depth with
  | zero => exact Repeats.tooDeep
  | succ depth =>
      cases depth' with
      | zero => exact absurd le (Nat.not_succ_le_zero _)
      | succ depth' => exact operation_inStep (unary_repeats (Nat.le_of_succ_le_succ le)) loosest

theorem lineEnd_inStep : InStep D E lineEnd lineEnd := by
  refine .bind .peek fun t => ?_
  split
  · exact .advance
  · exact .pure ()
  · exact .pure ()
  · exact .unexpected _

section rules

variable {expr expr' : Rule Expr} {body body' : Rule Block} {stmt stmt' : Rule Stmt}

theorem condition_inStep (he : InStep D E expr expr') :
    InStep D E (condition expr) (condition expr') :=
  .bind (.expect _) fun _ => .bind he fun e => .bind (.expect _) fun _ => .pure e

theorem block_inStep (hb : InStep D E body body') : InStep D E (block body) (block body') :=
  .bind (.expect _) fun _ => .bind .skipNewlines fun _ => .bind (.expect _) fun _ => hb

/-- The next token is the same on inputs that are alike. -/
theorem next_eq_of_alike {s s₁ t : State} {front rest : List Token}
    (hs : s.input = front ++ s₁.input) (ht : t.input = front ++ rest)
    (hrest : rest.head? = s₁.input.head?) : t.next = s.next :=
  next_of_head?_eq (hs ▸ ht ▸ head?_append_of_head?_eq hrest)

variable {α : Type} {stop : Token.Kind → Bool} {rule rule' : Rule α}

/-- One round of a repetition, in front of the rest of them. -/
theorem manyUntil_endsAlike {s after last : State} {a : α} {r : Except SyntaxError (List α)}
    (goesOn : ¬ stop s.next.kind) (one : EndsAlike rule' s after (.ok a))
    (less : after.left < s.left) (more : EndsAlike (manyUntil stop rule') after last r) :
    EndsAlike (manyUntil stop rule') s last (r.map (a :: ·)) := by
  obtain ⟨front, hfront, again⟩ := one
  obtain ⟨front', hfront', again'⟩ := more
  refine ⟨front ++ front', by rw [hfront, hfront', List.append_assoc], fun t rest ht hrest => ?_⟩
  rw [List.append_assoc] at ht
  have hhead : (front' ++ rest).head? = after.input.head? :=
    hfront' ▸ head?_append_of_head?_eq hrest
  obtain ⟨t₁, ht₁, hrest₁⟩ := again ht hhead
  obtain ⟨t₂, ht₂, hrest₂⟩ := again' hrest₁ hrest
  refine ⟨t₂, ?_, hrest₂⟩
  have less' : t₁.left < t.left := by rwa [left_lt_iff (hrest₁ ▸ ht), ← left_lt_iff hfront]
  rw [manyUntil, next_eq_of_alike hfront ht hhead, if_neg goesOn]
  simp only [ht₁, result, if_pos less', ht₂]
  cases r <;> rfl

theorem manyUntil_inStep (hr : InStep D E rule rule') :
    InStep D E (manyUntil stop rule) (manyUntil stop rule') := by
  intro s s₁ r counts h settled
  fun_induction manyUntil stop rule s generalizing s₁ r with
  | case1 s stopped =>
      obtain ⟨rfl, rfl⟩ := @result_inj _ (.ok []) _ _ _ h
      refine ⟨⟨rfl, rfl⟩, [], rfl, fun t rest ht hrest => ⟨t, ?_, ht⟩⟩
      rw [manyUntil, next_eq_of_alike rfl ht hrest, if_pos stopped]
      rfl
  | case2 s goesOn e after hrule =>
      obtain ⟨rfl, rfl⟩ := @result_inj _ (.error e) _ _ _ h
      obtain ⟨onward, front, hfront, again⟩ := @hr _ _ (.error e) counts hrule settled
      refine ⟨onward, front, hfront, fun t rest ht hrest => ?_⟩
      obtain ⟨t₁, ht₁, hrest₁⟩ := again ht hrest
      refine ⟨t₁, ?_, hrest₁⟩
      rw [manyUntil, next_eq_of_alike hfront ht hrest, if_neg goesOn]
      simp only [ht₁, result]
  | case3 s goesOn a after hrule less e last hmore ih =>
      obtain ⟨rfl, rfl⟩ := @result_inj _ (.error e) _ _ _ h
      obtain ⟨onward, one⟩ := @hr _ _ (.ok a) counts hrule trivial
      obtain ⟨onward', more⟩ := @ih _ (.error e) (onward.depth ▸ counts) hmore settled
      exact ⟨onward.trans onward', manyUntil_endsAlike goesOn one less more⟩
  | case4 s goesOn a after hrule less more last hmore ih =>
      obtain ⟨rfl, rfl⟩ := @result_inj _ (.ok (a :: more)) _ _ _ h
      obtain ⟨onward, one⟩ := @hr _ _ (.ok a) counts hrule trivial
      obtain ⟨onward', rest⟩ := @ih _ (.ok more) (onward.depth ▸ counts) hmore trivial
      exact ⟨onward.trans onward', manyUntil_endsAlike goesOn one less rest⟩
  | case5 s goesOn a after hrule notLess =>
      obtain ⟨rfl, rfl⟩ := @result_inj _ (.ok [a]) _ _ _ h
      obtain ⟨onward, front, hfront, again⟩ := @hr _ _ (.ok a) counts hrule trivial
      refine ⟨onward, front, hfront, fun t rest ht hrest => ?_⟩
      obtain ⟨t₁, ht₁, hrest₁⟩ := again ht hrest
      refine ⟨t₁, ?_, hrest₁⟩
      have notLess' : ¬ t₁.left < t.left := by
        rwa [left_lt_iff (hrest₁ ▸ ht), ← left_lt_iff hfront]
      rw [manyUntil, next_eq_of_alike hfront ht hrest, if_neg goesOn]
      simp only [ht₁, result, if_neg notLess']

theorem statements_inStep (hs : InStep D E stmt stmt') :
    InStep D E (statements stop stmt) (statements stop stmt') :=
  .bind .skipNewlines fun _ =>
    manyUntil_inStep (.bind hs fun a => .bind .skipNewlines fun _ => .pure a)

theorem blockBody_inStep (hs : InStep D E stmt stmt') :
    InStep D E (blockBody stmt) (blockBody stmt') := by
  refine .bind (statements_inStep hs) fun b => ?_
  split
  · exact .unexpected _
  · exact .bind (.expect _) fun _ => .pure b

theorem otherwise?_inStep (hb : InStep D E body body') :
    InStep D E (otherwise? body) (otherwise? body') := by
  refine .bind .peek fun t => ?_
  split
  · exact .bind .advance fun _ => .bind (block_inStep hb) fun _ => .pure _
  · exact .bind .advance fun _ => .bind (block_inStep hb) fun _ => .pure _
  · exact .pure none

theorem initializer?_inStep (he : InStep D E expr expr') :
    InStep D E (initializer? expr) (initializer? expr') := by
  refine .bind .peek fun t => ?_
  split
  · exact .bind .advance fun _ => .bind he fun _ => .pure _
  · exact .pure none

theorem statementOver_inStep (he : InStep D E expr expr') (hb : InStep D E body body') :
    InStep D E (statementOver expr body) (statementOver expr' body') := by
  have hc := condition_inStep he
  have hblock := block_inStep hb
  refine .bind .peek fun t => .bind (.noteBegun t) fun _ => ?_
  split
  case h_1 =>
    exact .bind .advance fun _ => .bind hc fun _ => .bind hblock fun _ =>
      .bind (otherwise?_inStep hb) fun _ => .pure _
  case h_2 => exact .bind .advance fun _ => .bind hc fun _ => .bind hblock fun _ => .pure _
  case h_3 =>
    exact .bind .advance fun _ => .bind hblock fun _ => .bind (.expect _) fun _ =>
      .bind hc fun _ => .bind lineEnd_inStep fun _ => .pure _
  case h_4 =>
    exact .bind .advance fun _ => .bind he fun _ => .bind lineEnd_inStep fun _ => .pure _
  case h_5 =>
    exact .bind .advance fun _ => .bind (.expect _) fun _ => .bind he fun _ =>
      .bind lineEnd_inStep fun _ => .pure _
  case h_6 =>
    exact .bind .advance fun _ => .bind (.expect _) fun _ => .bind (initializer?_inStep he) fun _ =>
      .bind lineEnd_inStep fun _ => .pure _
  case h_7 => exact .unexpected _

end rules

theorem statement_repeats {depth depth' : Nat} (le : depth ≤ depth') :
    Repeats (statement depth) (statement depth') := by
  induction depth generalizing depth' with
  | zero => cases depth' <;> exact statementOver_inStep (expression_repeats le) Repeats.tooDeep
  | succ depth ih =>
      cases depth' with
      | zero => exact absurd le (Nat.not_succ_le_zero _)
      | succ depth' =>
          exact statementOver_inStep (expression_repeats le)
            (blockBody_inStep (ih (Nat.le_of_succ_le_succ le)))

/-- What refuses a token among statements refuses it on every input that is alike. -/
theorem statements_repeats {stmt stmt' : Rule Stmt} {stop : Token.Kind → Bool}
    (hs : Repeats stmt stmt') ⦃s s₁ : State⦄ ⦃r : Except SyntaxError Block⦄
    (h : statements stop stmt s = result r s₁) (settled : Settled (·.found?.isSome) r) :
    EndsAlike (statements stop stmt') s s₁ r :=
  (statements_inStep hs trivial h settled).2

end PasoFrontEnd.Grammar
