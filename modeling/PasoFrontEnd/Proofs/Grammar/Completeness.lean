import PasoFrontEnd.Proofs.Grammar.Soundness

/-!
The rules of the grammar are complete: what the grammar derives they read, as long as they have room
for its nesting and as long as nothing stands behind it that would go on with it. So parsing answers
exactly the trees that the grammar derives within the limit of nesting, and no list has two.
-/

namespace PasoFrontEnd.Grammar

namespace Rule

variable {α β : Type}

/-- On this input the rule answers the given value, and leaves the given rest. -/
def Reads (rule : Rule α) (ts : List Token) (a : α) (rest : List Token) : Prop :=
  ∀ ⦃s : State⦄, s.input = ts → ∃ s', rule s = .ok a s' ∧ s'.input = rest

theorem Reads.bind {x : Rule α} {f : α → Rule β} {ts us rest : List Token} {a : α} {b : β}
    (hx : x.Reads ts a us) (hf : (f a).Reads us b rest) : (x >>= f).Reads ts b rest := by
  intro s hs
  obtain ⟨s₁, hok, h₁⟩ := hx hs
  obtain ⟨s₂, hok₂, h₂⟩ := hf h₁
  exact ⟨s₂, (bind_of_ok hok).trans hok₂, h₂⟩

theorem Reads.pure {ts : List Token} {a : α} : Reads (Pure.pure a : Rule α) ts a ts :=
  fun s hs => ⟨s, rfl, hs⟩

theorem Reads.peek {t : Token} {ts : List Token} : Reads peek (t :: ts) t (t :: ts) := by
  intro s hs
  exact ⟨s, congrArg (EStateM.Result.ok · s) (State.next_eq_of_input hs), hs⟩

theorem Reads.advance {t : Token} {ts : List Token} (h : t.kind ≠ .eof) :
    Reads advance (t :: ts) () ts :=
  fun s hs => ⟨s.advance, rfl, State.input_advance hs h⟩

theorem Reads.noteBegun {t : Token} {ts : List Token} : Reads (noteBegun t) ts () ts :=
  fun s hs => ⟨{ s with begun := t :: s.begun }, rfl, hs⟩

theorem Reads.expect {t : Token} {ts : List Token} {kind : Token.Kind} (h : t.kind = kind)
    (hk : kind ≠ .eof) : Reads (expect kind) (t :: ts) t ts :=
  fun s hs => ⟨s.advance, expect_of_input hs h, State.input_advance hs (h ▸ hk)⟩

theorem Reads.skipNewlines {t : Token} {ts rest : List Token} (h : Newlines ts (t :: rest))
    (hk : t.kind ≠ .newline) : Reads skipNewlines ts () (t :: rest) :=
  fun s hs => ⟨s.skipNewlines, rfl, State.input_skipNewlines (hs ▸ h) hk⟩

end Rule

/-- No operator that binds tighter than the given rank comes next. -/
def Loose (rank : Nat) (rest : List Token) : Prop :=
  ∀ t ∈ rest.head?, ∀ op : BinaryOp, t.kind = op.kind → rank ≤ op.rank

theorem Loose.mono {rank rank' : Nat} {rest : List Token} (h : Loose rank rest)
    (hr : rank' ≤ rank) : Loose rank' rest :=
  fun t ht op hop => Nat.le_trans hr (h t ht op hop)

theorem loose_of_kind_ne {rank : Nat} {t : Token} {ts : List Token}
    (h : ∀ op : BinaryOp, t.kind ≠ op.kind) : Loose rank (t :: ts) := by
  intro u hu op hop
  cases hu
  exact absurd hop (h op)

theorem loose_of_operator {rank : Nat} {t : Token} {ts : List Token} {op : BinaryOp}
    (h : Operator rank t.kind op) : Loose rank (t :: ts) := by
  intro u hu op' hop'
  cases hu
  have same := h.ofKind?.symm.trans (hop' ▸ BinaryOp.ofKind?_kind op')
  cases same
  exact Nat.le_of_eq h.rank_eq.symm

theorem loose_of_closeParen {rank : Nat} {t : Token} {ts : List Token}
    (h : t.kind = .symbol .closeParen) : Loose rank (t :: ts) :=
  loose_of_kind_ne fun op => by cases op <;> simp [h, BinaryOp.kind]

theorem LineEnd.loose {rank : Nat} {ts rest : List Token} : LineEnd ts rest → Loose rank ts
  | .newline kind => loose_of_kind_ne fun op => by cases op <;> simp [kind, BinaryOp.kind]
  | .ahead (.inl kind) => loose_of_kind_ne fun op => by cases op <;> simp [kind, BinaryOp.kind]
  | .ahead (.inr kind) => loose_of_kind_ne fun op => by cases op <;> simp [kind, BinaryOp.kind]

/-- What is left to do for operators of a rank behind the left operand of them. -/
def resume (operand : Rule Expr) : Nat → Expr → State → EStateM.Result SyntaxError State Expr
  | 0, e, s => .ok e s
  | rank + 1, e, s => joinedFrom (rank + 1) (operation operand rank) e s

theorem resume_of_loose {operand : Rule Expr} {rank : Nat} {e : Expr} {s : State}
    (h : Loose (rank + 1) s.input) : resume operand rank e s = .ok e s := by
  cases rank with
  | zero => rfl
  | succ rank =>
      have hnone : (BinaryOp.ofKind? s.next.kind).filter (·.rank = rank + 1) = none := by
        rw [Option.filter_eq_none_iff]
        intro op hop
        obtain ⟨ts, hts⟩ := s.input_eq_next_cons
        have hle := h s.next (by simp [hts]) op (BinaryOp.kind_eq_of_ofKind? hop)
        simp only [decide_eq_true_eq]
        omega
      rw [resume, joinedFrom, hnone]

theorem resume_operation {operand : Rule Expr} {rank : Nat} {l r : Expr} {t : Token} {op : BinaryOp}
    {us rest : List Token} {s s' : State} (hs : s.input = t :: us)
    (operator : Operator (rank + 1) t.kind op) (hr : operation operand rank s.advance = .ok r s')
    (hs' : s'.input = rest) (less : rest.length < us.length) :
    resume operand (rank + 1) l s =
      resume operand (rank + 1) (.operation op l r t.location) s' := by
  have hnext := State.next_eq_of_input hs
  have hlen := congrArg List.length hs
  have hlen' := congrArg List.length hs'
  simp only [State.length_input, List.length_cons] at hlen hlen'
  rw [resume, joinedFrom, hnext, operator.ofKind?]
  simp only [Option.filter_some, operator.rank_eq, decide_true, ↓reduceIte, hr]
  rw [if_pos (by omega), resume]

section unaryOver

variable {signed group : Rule Expr} {t : Token} {ts rest : List Token} {e : Expr}

theorem unaryOver_literal {value : Literal} (writes : Writes t value) :
    (unaryOver signed group).Reads (t :: rest) (.literal value t.location) rest := by
  refine .bind .peek ?_
  have hvalue := literal?_eq_some_some_iff.2 writes
  have hadvance : Rule.Reads advance (t :: rest) () rest := .advance writes.kind_ne_eof
  cases writes <;> simp only [*] <;> exact hadvance.bind .pure

theorem unaryOver_named (name : t.kind = .identifier) :
    (unaryOver signed group).Reads (t :: rest) (.named t.lexeme t.location) rest := by
  refine .bind .peek ?_
  simp only [name]
  exact .bind (.advance (by simp [name])) .pure

theorem unaryOver_negation (sign : t.kind = .symbol .minus) (operand : signed.Reads ts e rest) :
    (unaryOver signed group).Reads (t :: ts) (.negation e t.location) rest := by
  refine .bind .peek ?_
  simp only [sign]
  exact .bind (.advance (by simp [sign])) (.bind operand .pure)

theorem unaryOver_group {c : Token} (opening : t.kind = .symbol .openParen)
    (inner : group.Reads ts e (c :: rest)) (closing : c.kind = .symbol .closeParen) :
    (unaryOver signed group).Reads (t :: ts) e rest := by
  refine .bind .peek ?_
  simp only [opening]
  exact .bind (.advance (by simp [opening])) (.bind inner (.bind (.expect closing (by simp)) .pure))

end unaryOver

/-- The induction follows the derivation, and behind a left operand the loop over the operators of
its rank is still to be finished. -/
theorem exists_operation_eq_resume {rank n : Nat} {ts rest : List Token} {e : Expr}
    (d : Expression rank ts e rest n) {depth : Nat} (hn : n ≤ depth) (loose : Loose rank rest)
    {s : State} (hs : s.input = ts) :
    ∃ s', operation (unary depth) rank s = resume (unary depth) rank e s' ∧ s'.input = rest := by
  induction d generalizing depth s with
  | literal writes => cases depth <;> exact unaryOver_literal writes hs
  | named name => cases depth <;> exact unaryOver_named name hs
  | negation sign _ ih =>
      cases depth with
      | zero => exact absurd hn (Nat.not_succ_le_zero _)
      | succ depth =>
          refine unaryOver_negation sign (fun s hs => ?_) hs
          exact ih (Nat.le_of_succ_le_succ hn) loose hs
  | group opening _ closing ih =>
      cases depth with
      | zero => exact absurd hn (Nat.not_succ_le_zero _)
      | succ depth =>
          refine unaryOver_group opening (fun s hs => ?_) closing hs
          obtain ⟨s', hrun, hs'⟩ :=
            ih (Nat.le_of_succ_le_succ hn) (loose_of_closeParen closing) hs
          exact ⟨s', hrun.trans (resume_of_loose (hs' ▸ loose_of_closeParen closing)), hs'⟩
  | operand _ ih =>
      obtain ⟨s', hrun, hs'⟩ := ih hn (loose.mono (Nat.le_succ _)) hs
      -- the loop of the rank below ends here, and the one of this rank is still to be finished
      have hok := hrun.trans (resume_of_loose (hs' ▸ loose))
      exact ⟨s', Rule.bind_of_ok hok, hs'⟩
  | operation _ operator right ihl ihr =>
      obtain ⟨s₁, hleft, hs₁⟩ := ihl (Nat.le_trans (Nat.le_max_left ..) hn)
        (loose_of_operator operator) hs
      obtain ⟨s₂, hright, hs₂⟩ := ihr (Nat.le_trans (Nat.le_max_right ..) hn)
        (loose.mono (Nat.le_succ _)) (State.input_advance hs₁ (operator.kind_eq ▸ kind_ne_eof _))
      have hok := hright.trans (resume_of_loose (hs₂ ▸ loose))
      exact ⟨s₂, hleft.trans (resume_operation hs₁ operator hok hs₂ right.length_lt), hs₂⟩

theorem reads_expression {depth n : Nat} {ts rest : List Token} {e : Expr}
    (d : Expression 6 ts e rest n) (hn : n < depth) (loose : ∀ rank, Loose rank rest) :
    (expression depth).Reads ts e rest := by
  intro s hs
  cases depth with
  | zero => exact absurd hn (Nat.not_lt_zero _)
  | succ depth =>
      obtain ⟨s', hrun, hs'⟩ := exists_operation_eq_resume d (Nat.le_of_lt_succ hn) (loose _) hs
      exact ⟨s', hrun.trans (resume_of_loose (hs' ▸ loose _)), hs'⟩

theorem reads_condition {depth n : Nat} {ts rest : List Token} {c : Expr}
    (d : Condition ts c rest n) (hn : n ≤ depth) :
    (condition (expression depth)).Reads ts c rest := by
  cases d with
  | intro opening inner closing =>
      have hinner := reads_expression inner hn fun _ => loose_of_closeParen closing
      exact .bind (.expect opening (by simp))
        (.bind hinner (.bind (.expect closing (by simp)) .pure))

theorem LineEnd.head_ne_assign {a : Token} {ts rest : List Token}
    (d : LineEnd (a :: ts) rest) : a.kind ≠ .symbol .assign := by
  cases d with
  | newline kind => simp [kind]
  | ahead closing => obtain kind | kind := closing <;> simp [kind]

theorem reads_lineEnd {ts rest : List Token} (d : LineEnd ts rest) : lineEnd.Reads ts () rest := by
  cases d with
  | newline kind =>
      refine .bind .peek ?_
      simp only [kind]
      exact .advance (by simp [kind])
  | ahead closing =>
      refine .bind .peek ?_
      obtain kind | kind := closing <;> simp only [kind] <;> exact .pure

/-- The rule for the bodies of blocks that statements with the given depth left contain. -/
def body : Nat → Rule Block
  | 0 => tooDeep
  | depth + 1 => blockBody (statement depth)

theorem statement_eq (depth : Nat) :
    statement depth = statementOver (expression depth) (body depth) := by
  cases depth <;> rfl

/-- No other half of a branch comes next. -/
def NoElse (rest : List Token) : Prop :=
  ∀ t ∈ rest.head?, t.kind ≠ .keyword .siNo ∧ t.kind ≠ .keyword .deLoContrario

section statementOver

variable {expr : Rule Expr} {body : Rule Block} {t a i o w : Token} {ts us vs rest : List Token}
  {e c : Expr} {b b' : Block} {type : ValueType}

theorem statementOver_assignment (name : t.kind = .identifier) (assign : a.kind = .symbol .assign)
    (value : expr.Reads ts e us) (ends : LineEnd us rest) :
    (statementOver expr body).Reads (t :: a :: ts) (.assignment t.lexeme e t.location) rest := by
  refine .bind .peek (.bind .noteBegun ?_)
  simp only [name]
  exact .bind (.advance (by simp [name])) (.bind (.expect assign (by simp))
    (.bind value (.bind (reads_lineEnd ends) .pure)))

theorem statementOver_print (muestra : t.kind = .keyword .muestra) (value : expr.Reads ts e us)
    (ends : LineEnd us rest) :
    (statementOver expr body).Reads (t :: ts) (.print e t.location) rest := by
  refine .bind .peek (.bind .noteBegun ?_)
  simp only [muestra]
  exact .bind (.advance (by simp [muestra])) (.bind value (.bind (reads_lineEnd ends) .pure))

theorem statementOver_declaration (typed : t.kind = .keyword (.typeName type))
    (name : i.kind = .identifier) (ends : LineEnd ts rest) :
    (statementOver expr body).Reads (t :: i :: ts) (.declaration type i.lexeme none t.location)
      rest := by
  refine .bind .peek (.bind .noteBegun ?_)
  simp only [typed]
  have hinit : (initializer? expr).Reads ts none ts := by
    obtain ⟨a, us, rfl⟩ : ∃ a us, ts = a :: us := by cases ends <;> exact ⟨_, _, rfl⟩
    refine .bind .peek ?_
    rw [if_neg ends.head_ne_assign]
    exact .pure
  exact .bind (.advance (by simp [typed])) (.bind (.expect name (by simp))
    (.bind hinit (.bind (reads_lineEnd ends) .pure)))

theorem statementOver_initialized (typed : t.kind = .keyword (.typeName type))
    (name : i.kind = .identifier) (assign : a.kind = .symbol .assign) (value : expr.Reads ts e us)
    (ends : LineEnd us rest) :
    (statementOver expr body).Reads (t :: i :: a :: ts)
      (.declaration type i.lexeme (some e) t.location) rest := by
  refine .bind .peek (.bind .noteBegun ?_)
  simp only [typed]
  have hinit : (initializer? expr).Reads (a :: ts) (some e) us := by
    refine .bind .peek ?_
    rw [if_pos assign]
    exact .bind (.advance (by simp [assign])) (.bind value .pure)
  exact .bind (.advance (by simp [typed])) (.bind (.expect name (by simp))
    (.bind hinit (.bind (reads_lineEnd ends) .pure)))

theorem statementOver_branch (si : t.kind = .keyword .si)
    (condition : (condition expr).Reads ts c us)
    (first : (block body).Reads us b rest) (nonempty : rest ≠ []) (noElse : NoElse rest) :
    (statementOver expr body).Reads (t :: ts) (.branch c b none t.location) rest := by
  refine .bind .peek (.bind .noteBegun ?_)
  simp only [si]
  have hother : (otherwise? body).Reads rest none rest := by
    obtain ⟨o, vs, rfl⟩ := List.exists_cons_of_ne_nil nonempty
    refine .bind .peek ?_
    obtain ⟨notElse, notOtherwise⟩ := noElse o rfl
    split
    · contradiction
    · contradiction
    · exact .pure
  exact .bind (.advance (by simp [si])) (.bind condition (.bind first (.bind hother .pure)))

theorem statementOver_branchElse (si : t.kind = .keyword .si)
    (condition : (condition expr).Reads ts c us) (first : (block body).Reads us b (o :: vs))
    (other : o.kind = .keyword .siNo ∨ o.kind = .keyword .deLoContrario)
    (otherwise : (block body).Reads vs b' rest) :
    (statementOver expr body).Reads (t :: ts) (.branch c b (some b') t.location) rest := by
  refine .bind .peek (.bind .noteBegun ?_)
  simp only [si]
  have hother : (otherwise? body).Reads (o :: vs) (some b') rest := by
    refine .bind .peek ?_
    obtain kind | kind := other <;> simp only [kind] <;>
      exact .bind (.advance (by simp [kind])) (.bind otherwise .pure)
  exact .bind (.advance (by simp [si])) (.bind condition (.bind first (.bind hother .pure)))

theorem statementOver_loop (mientras : t.kind = .keyword .mientras)
    (condition : (condition expr).Reads ts c us) (repeated : (block body).Reads us b rest) :
    (statementOver expr body).Reads (t :: ts) (.loop c b t.location) rest := by
  refine .bind .peek (.bind .noteBegun ?_)
  simp only [mientras]
  exact .bind (.advance (by simp [mientras])) (.bind condition (.bind repeated .pure))

theorem statementOver_doLoop (haz : t.kind = .keyword .haz)
    (repeated : (block body).Reads ts b (w :: us)) (mientras : w.kind = .keyword .mientras)
    (condition : (condition expr).Reads us c vs) (ends : LineEnd vs rest) :
    (statementOver expr body).Reads (t :: ts) (.doLoop b c t.location) rest := by
  refine .bind .peek (.bind .noteBegun ?_)
  simp only [haz]
  exact .bind (.advance (by simp [haz])) (.bind repeated (.bind (.expect mientras (by simp))
    (.bind condition (.bind (reads_lineEnd ends) .pure))))

end statementOver

theorem mem_statementStart_typeName (type : ValueType) :
    .keyword (.typeName type) ∈ statementStart := by
  cases type <;> simp [statementStart]

theorem Statement.exists_eq_cons {ts rest : List Token} {a : Stmt} {n : Nat} :
    Statement ts a rest n → ∃ t us, ts = t :: us ∧ t.kind ∈ statementStart
  | .assignment kind _ _ _ | .print kind _ _ | .branch kind _ _ | .branchElse kind _ _ _ _
  | .loop kind _ _ | .doLoop kind _ _ _ _ => ⟨_, _, rfl, by simp [kind, statementStart]⟩
  | .declaration kind _ _ | .initialized kind _ _ _ _ =>
      ⟨_, _, rfl, kind ▸ mem_statementStart_typeName _⟩

theorem statements_nil {stop : Token.Kind → Bool} {stmt : Rule Stmt} {s : State} {t : Token}
    {ts : List Token} (hs : s.skipNewlines.input = t :: ts) (stopped : stop t.kind) :
    statements stop stmt s = .ok [] s.skipNewlines := by
  rw [statements_eq, manyUntil, State.next_eq_of_input hs, if_pos stopped]

theorem statements_cons {stop : Token.Kind → Bool} {stmt : Rule Stmt} {s s₁ s' : State} {t : Token}
    {ts : List Token} {a : Stmt} {b : Block} (hs : s.skipNewlines.input = t :: ts)
    (notStopped : stop t.kind = false) (first : stmt s.skipNewlines = .ok a s₁)
    (less : s₁.input.length < s.skipNewlines.input.length)
    (more : statements stop stmt s₁ = .ok b s') : statements stop stmt s = .ok (a :: b) s' := by
  have hspaced : spaced stmt s.skipNewlines = .ok a s₁.skipNewlines :=
    (Rule.bind_of_ok first).trans rfl
  have hle := s₁.newlines_skipNewlines.length_le
  simp only [State.length_input] at less hle
  rw [statements_eq] at more
  rw [statements_eq, manyUntil, State.next_eq_of_input hs, notStopped]
  simp only [Bool.false_eq_true, ↓reduceIte, hspaced, more]
  rw [if_pos (by omega)]

/-- The list begins with the end of a block or of the input. Repeating statements stops there, and
never at what a statement begins with. -/
structure StopsAt (stop : Token.Kind → Bool) (rest : List Token) : Prop where
  exists_closing : ∃ t ts, rest = t :: ts ∧ (t.kind = .dedent ∨ t.kind = .eof) ∧ stop t.kind
  start : ∀ kind ∈ statementStart, stop kind = false

theorem noElse_of_kind_ne {t : Token} {ts : List Token} (siNo : t.kind ≠ .keyword .siNo)
    (deLoContrario : t.kind ≠ .keyword .deLoContrario) : NoElse (t :: ts) := by
  intro u hu
  cases hu
  exact ⟨siNo, deLoContrario⟩

theorem Newlines.noElse {ts rest : List Token} (h : Newlines ts rest) (noElse : NoElse rest) :
    NoElse ts := by
  cases h with
  | none => exact noElse
  | cons kind _ => exact noElse_of_kind_ne (by simp [kind]) (by simp [kind])

theorem Statements.noElse {stop : Token.Kind → Bool} {ts rest : List Token} {b : Block} {n : Nat}
    (d : Statements ts b rest n) (stops : StopsAt stop rest) : ts ≠ [] ∧ NoElse ts := by
  obtain ⟨t, rest, rfl, closing, -⟩ := stops.exists_closing
  refine ⟨List.ne_nil_of_length_pos (Nat.lt_of_lt_of_le (Nat.succ_pos _) d.length_le), ?_⟩
  cases d with
  | nil blank =>
      refine blank.noElse ?_
      obtain kind | kind := closing <;> exact noElse_of_kind_ne (by simp [kind]) (by simp [kind])
  | cons blank first _ =>
      obtain ⟨u, us, rfl, hu⟩ := first.exists_eq_cons
      refine blank.noElse (noElse_of_kind_ne ?_ ?_) <;> intro kind <;>
        simp [kind, statementStart] at hu

mutual

theorem Statement.reads {ts rest : List Token} {a : Stmt} {n depth : Nat} :
    Statement ts a rest n → n ≤ depth → rest ≠ [] → NoElse rest → (statement depth).Reads ts a rest
  | .assignment name assign value ends, hn, _, _ => by
      rw [statement_eq]
      exact statementOver_assignment name assign
        (reads_expression value hn fun _ => ends.loose) ends
  | .declaration typed name ends, _, _, _ => by
      rw [statement_eq]
      exact statementOver_declaration typed name ends
  | .initialized typed name assign value ends, hn, _, _ => by
      rw [statement_eq]
      exact statementOver_initialized typed name assign
        (reads_expression value hn fun _ => ends.loose) ends
  | .print muestra value ends, hn, _, _ => by
      rw [statement_eq]
      exact statementOver_print muestra (reads_expression value hn fun _ => ends.loose) ends
  | .branch si condition first, hn, nonempty, noElse => by
      rw [statement_eq]
      rw [Nat.max_le] at hn
      exact statementOver_branch si (reads_condition condition hn.1) (first.reads hn.2) nonempty
        noElse
  | .branchElse si condition first other otherwise, hn, _, _ => by
      rw [statement_eq]
      rw [Nat.max_le, Nat.max_le] at hn
      exact statementOver_branchElse si (reads_condition condition hn.1) (first.reads hn.2.1) other
        (otherwise.reads hn.2.2)
  | .loop mientras condition repeated, hn, _, _ => by
      rw [statement_eq]
      rw [Nat.max_le] at hn
      exact statementOver_loop mientras (reads_condition condition hn.1) (repeated.reads hn.2)
  | .doLoop haz repeated mientras condition ends, hn, _, _ => by
      rw [statement_eq]
      rw [Nat.max_le] at hn
      exact statementOver_doLoop haz (repeated.reads hn.1) mientras
        (reads_condition condition hn.2) ends

theorem IndentedBlock.reads {ts rest : List Token} {b : Block} {n depth : Nat} :
    IndentedBlock ts b rest n → n ≤ depth → (block (body depth)).Reads ts b rest
  | .intro (i := i) newline more opened statements nonempty closed, hn => by
      cases depth with
      | zero => exact absurd hn (Nat.not_succ_le_zero _)
      | succ depth =>
          have hbody : (blockBody (statement depth)).Reads _ b rest :=
            .bind (statements.reads (Nat.le_of_succ_le_succ hn)
              ⟨⟨_, _, rfl, .inl closed, by simp [closed]⟩, by decide⟩) (by
                rw [if_neg (by simpa using nonempty)]
                exact .bind (.expect closed (by simp)) .pure)
          exact .bind (.expect newline (by simp)) (.bind (.skipNewlines more (by simp [opened]))
            (.bind (.expect opened (by simp)) hbody))

theorem Statements.reads {ts rest : List Token} {b : Block} {n depth : Nat}
    {stop : Token.Kind → Bool} :
    Statements ts b rest n → n ≤ depth → StopsAt stop rest →
      (statements stop (statement depth)).Reads ts b rest
  | .nil blank, _, stops => by
      intro s hs
      obtain ⟨t, rest, rfl, closing, stopped⟩ := stops.exists_closing
      have hskip := State.input_skipNewlines (hs ▸ blank) (by obtain h | h := closing <;> simp [h])
      exact ⟨_, statements_nil hskip stopped, hskip⟩
  | .cons blank first more, hn, stops => by
      intro s hs
      rw [Nat.max_le] at hn
      obtain ⟨u, us, hcons, hu⟩ := first.exists_eq_cons
      have hne : u.kind ≠ .newline := by
        intro kind
        simp [kind, statementStart] at hu
      have hskip := State.input_skipNewlines (hcons ▸ hs ▸ blank) hne
      obtain ⟨hnonempty, hnoElse⟩ := more.noElse stops
      obtain ⟨s₁, hfirst, hs₁⟩ := first.reads hn.1 hnonempty hnoElse (hskip.trans hcons.symm)
      obtain ⟨s', hmore, hs'⟩ := more.reads hn.2 stops hs₁
      refine ⟨s', statements_cons hskip (stops.start _ hu) hfirst ?_ hmore, hs'⟩
      rw [hs₁, hskip, ← hcons]
      exact first.length_lt

end

/-- Tokens without comments that end in their only end mark. -/
def Ended (tokens : List Token) : Prop :=
  ∃ ts e, tokens = ts ++ [e] ∧ e.kind = .eof ∧ ∀ t ∈ ts, t.kind ≠ .eof ∧ t.kind ≠ .comment

/-- The input ends at the first end mark among the tokens that are no comments. -/
theorem input_ofTokens_of_filter {tokens front behind : List Token} {e : Token}
    (code : tokens.filter (·.kind ≠ .comment) = front ++ e :: behind)
    (hfront : ∀ t ∈ front, t.kind ≠ .eof) (he : e.kind = .eof) :
    (State.ofTokens tokens).input = front ++ [e] := by
  obtain ⟨more, kept⟩ := filter_prefix_kept tokens
  rw [code, List.append_assoc, List.cons_append] at kept
  exact (State.ofTokens_of_kept kept.symm hfront he).1

theorem input_ofTokens {tokens : List Token} (h : Ended tokens) :
    (State.ofTokens tokens).input = tokens := by
  obtain ⟨ts, e, rfl, he, hts⟩ := h
  refine input_ofTokens_of_filter (List.filter_eq_self.2 fun t ht => ?_)
    (fun t ht => (hts t ht).1) he
  obtain ht | rfl := List.mem_append.1 ht |>.imp id List.mem_singleton.1
  · simpa using (hts t ht).2
  · simp [he]

theorem parse_eq_ok_iff {tokens : List Token} {p : Program} :
    parse tokens = .ok p ↔ ∃ s', program (.ofTokens tokens) = .ok p s' := by
  unfold parse
  split
  · rename_i q s' hq
    simp [hq]
  · rename_i e s' he
    simp [he]

theorem stopsAt_eof {t : Token} (ends : t.kind = .eof) :
    StopsAt (fun kind => decide (kind = .eof)) [t] :=
  ⟨⟨t, [], rfl, .inr ends, by simp [ends]⟩, by decide⟩

/-- Statements that the rules read up to the end of the input are a program. -/
theorem reads_program {tokens : List Token} {p : Program} {n : Nat} (d : Derivation tokens p n)
    (hn : n ≤ maxNesting) {s : State} (hs : s.input = tokens) :
    ∃ s', program s = .ok p s' := by
  cases d with
  | intro body ends =>
      obtain ⟨s', hok, -⟩ := body.reads hn (stopsAt_eof ends) hs
      exact ⟨s', Rule.bind_of_ok hok⟩

theorem Derivation.eq {tokens : List Token} {p q : Program} {n m : Nat} (hp : Derivation tokens p n)
    (hq : Derivation tokens q m) {s : State} (hs : s.input = tokens) : p = q := by
  cases hp with
  | intro body ends =>
      cases hq with
      | intro body' ends' =>
          have stops := stopsAt_eof ends
          obtain ⟨s₁, h₁, -⟩ := body.reads (Nat.le_max_left n m) stops hs
          obtain ⟨s₂, h₂, -⟩ := body'.reads (Nat.le_max_right n m) (stopsAt_eof ends') hs
          rw [h₁] at h₂
          cases h₂
          rfl

/-- Parsing answers a tree exactly if the grammar derives it from the tokens within the limit of
nesting, and no list of tokens has two trees within any limit. -/
theorem parse_eq_ok_iff_derivation {tokens : List Token} (h : Ended tokens) :
    (∀ p, parse tokens = .ok p ↔ ∃ n, n ≤ maxNesting ∧ Nonempty (Derivation tokens p n)) ∧
      ∀ {p q n m}, Derivation tokens p n → Derivation tokens q m → p = q := by
  have hinput := input_ofTokens h
  refine ⟨fun p => ?_, fun hp hq => hp.eq hq hinput⟩
  rw [parse_eq_ok_iff]
  constructor
  · intro ⟨s', hok⟩
    exact hinput ▸ program_sound hok
  · intro ⟨n, hn, ⟨d⟩⟩
    exact reads_program d hn hinput

/-- A loop `haz` around `x = -x + 1`, with its condition `x` on the last line. -/
def countdown : List Token :=
  [⟨.keyword .haz, "haz", ⟨1, 1⟩⟩, ⟨.newline, "\n", ⟨1, 4⟩⟩, ⟨.indent, "", ⟨2, 3⟩⟩,
   ⟨.identifier, "x", ⟨2, 3⟩⟩, ⟨.symbol .assign, "=", ⟨2, 5⟩⟩, ⟨.symbol .minus, "-", ⟨2, 7⟩⟩,
   ⟨.identifier, "x", ⟨2, 8⟩⟩, ⟨.symbol .plus, "+", ⟨2, 10⟩⟩, ⟨.integer, "1", ⟨2, 12⟩⟩,
   ⟨.newline, "\n", ⟨2, 13⟩⟩, ⟨.newline, "\n", ⟨3, 1⟩⟩, ⟨.dedent, "", ⟨4, 1⟩⟩,
   ⟨.keyword .mientras, "mientras", ⟨4, 1⟩⟩, ⟨.symbol .openParen, "(", ⟨4, 10⟩⟩,
   ⟨.identifier, "x", ⟨4, 11⟩⟩, ⟨.symbol .closeParen, ")", ⟨4, 12⟩⟩, ⟨.eof, "", ⟨4, 13⟩⟩]

def countdownTree : Program :=
  ⟨[.doLoop
    [.assignment "x"
      (.operation .add (.negation (.named "x" ⟨2, 8⟩) ⟨2, 7⟩) (.literal (.integer 1) ⟨2, 12⟩)
        ⟨2, 10⟩)
      ⟨2, 3⟩]
    (.named "x" ⟨4, 11⟩) ⟨1, 1⟩]⟩

/-- Operands of rank 0 as operands of every rank. -/
theorem Expression.loosened {rank n : Nat} {ts rest : List Token} {e : Expr}
    (h : Expression 0 ts e rest n) : Expression rank ts e rest n := by
  induction rank with
  | zero => exact h
  | succ _ ih => exact ih.operand

theorem parse_countdown :
    Ended countdown ∧ parse countdown = .ok countdownTree ∧
      ∀ {q n}, Derivation countdown q n → q = countdownTree := by
  have ended : Ended countdown := ⟨countdown.dropLast, ⟨.eof, "", ⟨4, 13⟩⟩, rfl, rfl, by decide⟩
  have sum : Expression 2 (countdown.drop 5) (.operation .add (.negation (.named "x" ⟨2, 8⟩) ⟨2, 7⟩)
      (.literal (.integer 1) ⟨2, 12⟩) ⟨2, 10⟩) (countdown.drop 9) 1 :=
    .operation (t := ⟨.symbol .plus, "+", ⟨2, 10⟩⟩) (Expression.negation rfl (.named rfl)).loosened
      .plus (Expression.literal (.integer rfl rfl)).loosened
  have derivation : Derivation countdown countdownTree 3 :=
    .intro (.cons .none (.doLoop rfl
      (.intro rfl .none rfl
        (.cons .none (.assignment rfl rfl sum.operand.operand.operand.operand (.newline rfl))
          (.nil (.cons rfl .none))) (by simp) rfl)
      rfl (.intro rfl (Expression.named rfl).loosened rfl) (.ahead (.inr rfl))) (.nil .none)) rfl
  obtain ⟨derives, unique⟩ := parse_eq_ok_iff_derivation ended
  exact ⟨ended, (derives countdownTree).2 ⟨3, by decide, ⟨derivation⟩⟩,
    fun d => unique d derivation⟩

end PasoFrontEnd.Grammar
