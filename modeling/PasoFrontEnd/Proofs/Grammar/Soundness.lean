import PasoFrontEnd.Proofs.Grammar.Input

/-!
The rules of the grammar are sound: what they read, the grammar derives, with the tree that they
answer and within the nesting that they have room for.
-/

namespace PasoFrontEnd.Grammar

/-- Both a literal's kind and its value are settled by the same look at the token. -/
theorem literal?_eq_some_some_iff {t : Token} {value : Literal} :
    literal? t = some (some value) ↔ Writes t value := by
  constructor
  · intro h
    unfold literal? at h
    split at h
    case h_1 kind =>
      obtain ⟨n, hn, rfl⟩ := Option.map_eq_some_iff.1 (Option.some.inj h)
      exact .integer kind hn
    case h_2 kind =>
      obtain ⟨x, hx, rfl⟩ := Option.map_eq_some_iff.1 (Option.some.inj h)
      exact .decimal kind hx
    case h_3 kind => cases h; exact .text kind
    case h_4 kind => cases h; exact .verdadero kind
    case h_5 kind => cases h; exact .falso kind
    case h_6 kind => cases h; exact .nulo kind
    case h_7 => contradiction
  · intro h
    cases h <;> simp_all [literal?]

theorem kind_ne_eof (op : BinaryOp) : op.kind ≠ .eof := by
  cases op <;> simp [BinaryOp.kind]

theorem Writes.kind_ne_eof {t : Token} {value : Literal} (h : Writes t value) : t.kind ≠ .eof := by
  cases h <;> simp_all

theorem Expression.operation_next {rank n m : Nat} {ts us : List Token} {left right : Expr}
    {op : BinaryOp} {s : State} (hl : Expression (rank + 1) ts left s.input n)
    (hop : (BinaryOp.ofKind? s.next.kind).filter (·.rank = rank + 1) = some op)
    (hr : Expression rank s.advance.input right us m) :
    Expression (rank + 1) ts (.operation op left right s.next.location) us (max n m) := by
  obtain ⟨hkind, hrank⟩ := Option.filter_eq_some_iff.1 hop
  have operator := operator_iff.2 ⟨hkind, of_decide_eq_true hrank⟩
  rw [State.input_of_next_ne_eof (operator.kind_eq ▸ kind_ne_eof op)] at hl
  exact .operation hl operator hr

theorem joinedFrom_sound {operand : Rule Expr} {rank depth : Nat}
    (ho : operand.Sound (Expression rank) depth) {ts : List Token} {left e : Expr} {s s' : State}
    {n : Nat} (hn : n < depth) (hl : Expression (rank + 1) ts left s.input n)
    (h : joinedFrom (rank + 1) operand left s = .ok e s') :
    ∃ m, m < depth ∧ Nonempty (Expression (rank + 1) ts e s'.input m) := by
  fun_induction joinedFrom (rank + 1) operand left s generalizing n with
  | case1 left s _ =>
      cases h
      exact ⟨n, hn, ⟨hl⟩⟩
  | case2 => contradiction
  | case3 =>
      rename_i left s op hop right after hright whole less ih
      obtain ⟨m, hm, ⟨hr⟩⟩ := ho hright
      exact ih (Nat.max_lt.2 ⟨hn, hm⟩) (hl.operation_next hop hr) h
  | case4 =>
      rename_i left s op hop right after hright whole notLess
      obtain ⟨m, hm, ⟨hr⟩⟩ := ho hright
      obtain ⟨rfl, rfl⟩ := EStateM.Result.ok.inj h
      exact ⟨_, Nat.max_lt.2 ⟨hn, hm⟩, ⟨hl.operation_next hop hr⟩⟩

theorem operation_sound {operand : Rule Expr} {depth : Nat}
    (ho : operand.Sound (Expression 0) depth) (rank : Nat) :
    (operation operand rank).Sound (Expression rank) depth := by
  induction rank with
  | zero => exact ho
  | succ rank ih =>
      intro s e s' h
      obtain ⟨left, s₁, hleft, h⟩ := Rule.ok_of_bind h
      obtain ⟨n, hn, ⟨hl⟩⟩ := ih hleft
      exact joinedFrom_sound ih hn (.operand hl) h

theorem unaryOver_sound {signed group : Rule Expr} {depth : Nat}
    (hs : signed.Sound (Expression 0) depth) (hg : group.Sound (Expression 6) depth) :
    (unaryOver signed group).Sound (Expression 0) (depth + 1) := by
  intro s e s' h
  replace h := Rule.ok_of_bind_of_ok rfl h
  obtain ⟨chosen, hchosen, h⟩ := Rule.eq_of_ok h
  split at hchosen <;> subst hchosen
  case h_1 kind =>
    replace h := Rule.ok_of_bind_of_ok rfl h
    obtain ⟨operand, s₂, hoperand, h⟩ := Rule.ok_of_bind h
    obtain ⟨rfl, rfl⟩ := Rule.ok_of_pure h
    obtain ⟨n, hn, ⟨hd⟩⟩ := hs hoperand
    rw [State.input_of_next_ne_eof (by simp [kind])]
    exact ⟨_, Nat.succ_lt_succ hn, ⟨.negation kind hd⟩⟩
  case h_2 kind =>
    replace h := Rule.ok_of_bind_of_ok rfl h
    obtain ⟨inner, s₂, hinner, h⟩ := Rule.ok_of_bind h
    obtain ⟨c, s₃, hc, h⟩ := Rule.ok_of_bind h
    obtain ⟨rfl, rfl⟩ := Rule.ok_of_pure h
    obtain ⟨n, hn, ⟨hd⟩⟩ := hg hinner
    obtain ⟨closing, hinput⟩ := input_of_expect hc (by simp)
    rw [State.input_of_next_ne_eof (by simp [kind])]
    exact ⟨_, Nat.succ_lt_succ hn, ⟨.group kind (hinput ▸ hd) closing⟩⟩
  case h_3 kind =>
    cases h
    rw [State.input_of_next_ne_eof (by simp [kind])]
    exact ⟨0, Nat.succ_pos _, ⟨.named kind⟩⟩
  case h_4 =>
    obtain ⟨chosen, hchosen, h⟩ := Rule.eq_of_ok h
    split at hchosen <;> subst hchosen
    case h_1 value hvalue =>
      cases h
      have hw := literal?_eq_some_some_iff.1 hvalue
      rw [State.input_of_next_ne_eof hw.kind_ne_eof]
      exact ⟨0, Nat.succ_pos _, ⟨.literal hw⟩⟩
    all_goals contradiction

theorem unary_sound (depth : Nat) : (unary depth).Sound (Expression 0) (depth + 1) := by
  induction depth with
  | zero => exact unaryOver_sound sound_tooDeep sound_tooDeep
  | succ depth ih => exact unaryOver_sound ih (operation_sound ih loosest)

theorem expression_sound (depth : Nat) : (expression depth).Sound (Expression 6) depth := by
  cases depth with
  | zero => exact sound_tooDeep
  | succ depth => exact operation_sound (unary_sound depth) loosest

theorem lineEnd_sound {s s' : State} (h : lineEnd s = .ok () s') : LineEnd s.input s'.input := by
  replace h := Rule.ok_of_bind_of_ok rfl h
  obtain ⟨chosen, hchosen, h⟩ := Rule.eq_of_ok h
  split at hchosen <;> subst hchosen
  case h_1 kind =>
    cases h
    rw [State.input_of_next_ne_eof (by simp [kind])]
    exact .newline kind
  case h_2 kind =>
    cases h
    rw [State.input_of_next_ne_eof (by simp [kind])]
    exact .ahead (.inl kind)
  case h_3 kind =>
    cases h
    rw [State.input_of_next_eof kind]
    exact .ahead (.inr kind)
  case h_4 => contradiction

theorem condition_sound {expr : Rule Expr} {depth : Nat}
    (he : expr.Sound (Expression 6) depth) : (condition expr).Sound Condition (depth + 1) := by
  intro s c s' h
  obtain ⟨o, s₁, ho, h⟩ := Rule.ok_of_bind h
  obtain ⟨e, s₂, hinner, h⟩ := Rule.ok_of_bind h
  obtain ⟨c, s₃, hc, h⟩ := Rule.ok_of_bind h
  obtain ⟨rfl, rfl⟩ := Rule.ok_of_pure h
  obtain ⟨opening, hopening⟩ := input_of_expect ho (by simp)
  obtain ⟨n, hn, ⟨inner⟩⟩ := he hinner
  obtain ⟨closing, hclosing⟩ := input_of_expect hc (by simp)
  rw [hopening]
  exact ⟨_, Nat.succ_lt_succ hn, ⟨.intro opening (hclosing ▸ inner) closing⟩⟩

/-- What stands between the markers of a block, and the second marker. -/
structure BlockBody (ts : List Token) (b : Block) (rest : List Token) (n : Nat) where
  marker : Token
  closed : marker.kind = .dedent
  nonempty : b ≠ []
  body : Statements ts b (marker :: rest) n

theorem block_sound {body : Rule Block} {depth : Nat} (hb : body.Sound BlockBody depth) :
    (block body).Sound IndentedBlock (depth + 1) := by
  intro s b s' h
  obtain ⟨t, s₁, ht, h⟩ := Rule.ok_of_bind h
  replace h := Rule.ok_of_bind_of_ok rfl h
  obtain ⟨i, s₃, hi, h⟩ := Rule.ok_of_bind h
  obtain ⟨newline, hnewline⟩ := input_of_expect ht (by simp)
  obtain ⟨opened, hopened⟩ := input_of_expect hi (by simp)
  obtain ⟨n, hn, ⟨d, closed, nonempty, statements⟩⟩ := hb h
  rw [hnewline]
  exact ⟨_, Nat.succ_lt_succ hn,
    ⟨.intro newline (hopened ▸ s₁.newlines_skipNewlines) opened statements nonempty closed⟩⟩

/-- A statement and the newlines behind it, as the rule for statements repeats them. -/
def spaced (stmt : Rule Stmt) : Rule Stmt := do
  let s ← stmt
  skipNewlines
  return s

theorem statements_eq (stop : Token.Kind → Bool) (stmt : Rule Stmt) (s : State) :
    statements stop stmt s = manyUntil stop (spaced stmt) s.skipNewlines := rfl

theorem ok_of_spaced {stmt : Rule Stmt} {s s' : State} {a : Stmt} (h : spaced stmt s = .ok a s') :
    ∃ s₁, stmt s = .ok a s₁ ∧ s₁.skipNewlines = s' := by
  obtain ⟨a, s₁, hstmt, h⟩ := Rule.ok_of_bind h
  replace h := Rule.ok_of_bind_of_ok rfl h
  obtain ⟨rfl, rfl⟩ := Rule.ok_of_pure h
  exact ⟨_, hstmt, rfl⟩

theorem manyUntil_sound {stop : Token.Kind → Bool} {stmt : Rule Stmt} {depth : Nat}
    (hs : stmt.Sound Statement (depth + 1))
    {s s' : State} {b : Block} (h : manyUntil stop (spaced stmt) s = .ok b s') {ts : List Token}
    (blank : Newlines ts s.input) :
    stop s'.next.kind ∧ ∃ n, n < depth + 1 ∧ Nonempty (Statements ts b s'.input n) := by
  fun_induction manyUntil stop (spaced stmt) s generalizing ts b s' with
  | case1 s stopped =>
      cases h
      exact ⟨stopped, 0, Nat.succ_pos _, ⟨.nil blank⟩⟩
  | case2 | case3 => contradiction
  | case4 s _ a after hfirst less more last hmore ih =>
      cases h
      obtain ⟨s₁, hstmt, rfl⟩ := ok_of_spaced hfirst
      obtain ⟨n, hn, ⟨first⟩⟩ := hs hstmt
      obtain ⟨stopped, m, hm, ⟨others⟩⟩ := ih hmore s₁.newlines_skipNewlines
      exact ⟨stopped, _, Nat.max_lt.2 ⟨hn, hm⟩, ⟨.cons blank first others⟩⟩
  | case5 s _ a after hfirst notLess =>
      obtain ⟨s₁, hstmt, rfl⟩ := ok_of_spaced hfirst
      obtain ⟨n, hn, ⟨first⟩⟩ := hs hstmt
      -- a statement has a token of its own, so a round that reads nothing does not succeed
      have hlt := first.length_lt
      have hle := s₁.newlines_skipNewlines.length_le
      simp only [State.length_input] at hlt hle
      omega

theorem statements_sound {stop : Token.Kind → Bool} {stmt : Rule Stmt} {depth : Nat}
    (hs : stmt.Sound Statement (depth + 1))
    {s s' : State} {b : Block} (h : statements stop stmt s = .ok b s') :
    stop s'.next.kind ∧ ∃ n, n < depth + 1 ∧ Nonempty (Statements s.input b s'.input n) :=
  manyUntil_sound hs h s.newlines_skipNewlines

theorem blockBody_sound {stmt : Rule Stmt} {depth : Nat}
    (hs : stmt.Sound Statement (depth + 1)) :
    (blockBody stmt).Sound BlockBody (depth + 1) := by
  intro s b s' h
  obtain ⟨body, s₁, hbody, h⟩ := Rule.ok_of_bind h
  obtain ⟨-, n, hn, ⟨hd⟩⟩ := statements_sound hs hbody
  obtain ⟨chosen, hchosen, h⟩ := Rule.eq_of_ok h
  split at hchosen <;> subst hchosen
  case isTrue => contradiction
  case isFalse nonempty =>
    obtain ⟨d, s₂, hclosed, h⟩ := Rule.ok_of_bind h
    obtain ⟨rfl, rfl⟩ := Rule.ok_of_pure h
    obtain ⟨closed, hinput⟩ := input_of_expect hclosed (by simp)
    exact ⟨n, hn, ⟨d, closed, by simpa using nonempty, hinput ▸ hd⟩⟩

theorem otherwise?_sound {body : Rule Block} {depth : Nat}
    (hb : (block body).Sound IndentedBlock depth)
    {s s' : State} {other : Option Block} (h : otherwise? body s = .ok other s') :
    other = none ∧ s = s' ∨
      ∃ b, other = some b ∧ ∃ o ts n,
        (o.kind = .keyword .siNo ∨ o.kind = .keyword .deLoContrario) ∧ n < depth ∧
        s.input = o :: ts ∧ Nonempty (IndentedBlock ts b s'.input n) := by
  replace h := Rule.ok_of_bind_of_ok rfl h
  obtain ⟨chosen, hchosen, h⟩ := Rule.eq_of_ok h
  split at hchosen <;> subst hchosen
  case h_3 => exact .inl ⟨(Rule.ok_of_pure h).1.symm, (Rule.ok_of_pure h).2⟩
  all_goals
    replace h := Rule.ok_of_bind_of_ok rfl h
    obtain ⟨b, s₁, hblock, h⟩ := Rule.ok_of_bind h
    obtain ⟨rfl, rfl⟩ := Rule.ok_of_pure h
    obtain ⟨n, hn, hd⟩ := hb hblock
    refine .inr ⟨b, rfl, s.next, s.advance.input, n, ?_, hn, State.input_of_next_ne_eof ?_, hd⟩ <;>
      simp [*]

theorem initializer?_sound {expr : Rule Expr} {depth : Nat}
    (he : expr.Sound (Expression 6) depth) {s s' : State} {init : Option Expr}
    (h : initializer? expr s = .ok init s') :
    init = none ∧ s = s' ∨
      ∃ e, init = some e ∧ ∃ a ts n, a.kind = .symbol .assign ∧ n < depth ∧
        s.input = a :: ts ∧ Expression 6 ts e s'.input n := by
  replace h := Rule.ok_of_bind_of_ok rfl h
  obtain ⟨chosen, hchosen, h⟩ := Rule.eq_of_ok h
  split at hchosen <;> subst hchosen
  case isFalse => exact .inl ⟨(Rule.ok_of_pure h).1.symm, (Rule.ok_of_pure h).2⟩
  case isTrue assign =>
    replace h := Rule.ok_of_bind_of_ok rfl h
    obtain ⟨e, s₁, hvalue, h⟩ := Rule.ok_of_bind h
    obtain ⟨rfl, rfl⟩ := Rule.ok_of_pure h
    obtain ⟨n, hn, ⟨value⟩⟩ := he hvalue
    exact .inr ⟨e, rfl, s.next, s.advance.input, n, assign, hn,
      State.input_of_next_ne_eof (by simp [assign]), value⟩

section statementOver

variable {expr : Rule Expr} {body : Rule Block} {depth : Nat} {s s' : State} {a : Stmt}

theorem branch_sound (hc : (condition expr).Sound Condition (depth + 1))
    (hb : (block body).Sound IndentedBlock (depth + 1)) (si : s.next.kind = .keyword .si)
    (h : statementOver expr body s = .ok a s') :
    ∃ n, n < depth + 1 ∧ Nonempty (Statement s.input a s'.input n) := by
  replace h := Rule.ok_of_bind_of_ok rfl (Rule.ok_of_bind_of_ok rfl h)
  simp only [si] at h
  replace h := Rule.ok_of_bind_of_ok rfl h
  obtain ⟨c, s₁, hcondition, h⟩ := Rule.ok_of_bind h
  obtain ⟨first, s₂, hfirst, h⟩ := Rule.ok_of_bind h
  obtain ⟨other, s₃, hother, h⟩ := Rule.ok_of_bind h
  obtain ⟨rfl, rfl⟩ := Rule.ok_of_pure h
  obtain ⟨n, hn, ⟨condition⟩⟩ := hc hcondition
  obtain ⟨m, hm, ⟨body⟩⟩ := hb hfirst
  rw [State.input_of_next_ne_eof (by simp [si])]
  obtain ⟨rfl, rfl⟩ | ⟨b, rfl, o, us, k, ho, hk, hinput, ⟨otherwise⟩⟩ :=
    otherwise?_sound hb hother
  · exact ⟨_, Nat.max_lt.2 ⟨hn, hm⟩, ⟨.branch si condition body⟩⟩
  · exact ⟨_, Nat.max_lt.2 ⟨hn, Nat.max_lt.2 ⟨hm, hk⟩⟩,
      ⟨.branchElse si condition (hinput ▸ body) ho otherwise⟩⟩

theorem loop_sound (hc : (condition expr).Sound Condition (depth + 1))
    (hb : (block body).Sound IndentedBlock (depth + 1))
    (mientras : s.next.kind = .keyword .mientras) (h : statementOver expr body s = .ok a s') :
    ∃ n, n < depth + 1 ∧ Nonempty (Statement s.input a s'.input n) := by
  replace h := Rule.ok_of_bind_of_ok rfl (Rule.ok_of_bind_of_ok rfl h)
  simp only [mientras] at h
  replace h := Rule.ok_of_bind_of_ok rfl h
  obtain ⟨c, s₁, hcondition, h⟩ := Rule.ok_of_bind h
  obtain ⟨repeated, s₂, hrepeated, h⟩ := Rule.ok_of_bind h
  obtain ⟨rfl, rfl⟩ := Rule.ok_of_pure h
  obtain ⟨n, hn, ⟨condition⟩⟩ := hc hcondition
  obtain ⟨m, hm, ⟨body⟩⟩ := hb hrepeated
  rw [State.input_of_next_ne_eof (by simp [mientras])]
  exact ⟨_, Nat.max_lt.2 ⟨hn, hm⟩, ⟨.loop mientras condition body⟩⟩

theorem doLoop_sound (hc : (condition expr).Sound Condition (depth + 1))
    (hb : (block body).Sound IndentedBlock (depth + 1)) (haz : s.next.kind = .keyword .haz)
    (h : statementOver expr body s = .ok a s') :
    ∃ n, n < depth + 1 ∧ Nonempty (Statement s.input a s'.input n) := by
  replace h := Rule.ok_of_bind_of_ok rfl (Rule.ok_of_bind_of_ok rfl h)
  simp only [haz] at h
  replace h := Rule.ok_of_bind_of_ok rfl h
  obtain ⟨repeated, s₁, hrepeated, h⟩ := Rule.ok_of_bind h
  obtain ⟨w, s₂, hw, h⟩ := Rule.ok_of_bind h
  obtain ⟨c, s₃, hcondition, h⟩ := Rule.ok_of_bind h
  obtain ⟨_, s₄, hend, h⟩ := Rule.ok_of_bind h
  obtain ⟨rfl, rfl⟩ := Rule.ok_of_pure h
  obtain ⟨n, hn, ⟨body⟩⟩ := hb hrepeated
  obtain ⟨mientras, hinput⟩ := input_of_expect hw (by simp)
  obtain ⟨m, hm, ⟨condition⟩⟩ := hc hcondition
  rw [State.input_of_next_ne_eof (by simp [haz])]
  exact ⟨_, Nat.max_lt.2 ⟨hn, hm⟩,
    ⟨.doLoop haz (hinput ▸ body) mientras condition (lineEnd_sound hend)⟩⟩

theorem print_sound (he : expr.Sound (Expression 6) depth)
    (muestra : s.next.kind = .keyword .muestra) (h : statementOver expr body s = .ok a s') :
    ∃ n, n < depth + 1 ∧ Nonempty (Statement s.input a s'.input n) := by
  replace h := Rule.ok_of_bind_of_ok rfl (Rule.ok_of_bind_of_ok rfl h)
  simp only [muestra] at h
  replace h := Rule.ok_of_bind_of_ok rfl h
  obtain ⟨e, s₁, hvalue, h⟩ := Rule.ok_of_bind h
  obtain ⟨_, s₂, hend, h⟩ := Rule.ok_of_bind h
  obtain ⟨rfl, rfl⟩ := Rule.ok_of_pure h
  obtain ⟨n, hn, ⟨value⟩⟩ := he hvalue
  rw [State.input_of_next_ne_eof (by simp [muestra])]
  exact ⟨_, Nat.succ_lt_succ hn, ⟨.print muestra value (lineEnd_sound hend)⟩⟩

theorem assignment_sound (he : expr.Sound (Expression 6) depth)
    (name : s.next.kind = .identifier) (h : statementOver expr body s = .ok a s') :
    ∃ n, n < depth + 1 ∧ Nonempty (Statement s.input a s'.input n) := by
  replace h := Rule.ok_of_bind_of_ok rfl (Rule.ok_of_bind_of_ok rfl h)
  simp only [name] at h
  replace h := Rule.ok_of_bind_of_ok rfl h
  obtain ⟨t, s₁, ht, h⟩ := Rule.ok_of_bind h
  obtain ⟨e, s₂, hvalue, h⟩ := Rule.ok_of_bind h
  obtain ⟨_, s₃, hend, h⟩ := Rule.ok_of_bind h
  obtain ⟨rfl, rfl⟩ := Rule.ok_of_pure h
  obtain ⟨assign, hinput⟩ := input_of_expect ht (by simp)
  obtain ⟨n, hn, ⟨value⟩⟩ := he hvalue
  rw [State.input_of_next_ne_eof (by simp [name])]
  exact ⟨_, Nat.succ_lt_succ hn, ⟨hinput ▸ .assignment name assign value (lineEnd_sound hend)⟩⟩

theorem declaration_sound (he : expr.Sound (Expression 6) depth) {type : ValueType}
    (typed : s.next.kind = .keyword (.typeName type)) (h : statementOver expr body s = .ok a s') :
    ∃ n, n < depth + 1 ∧ Nonempty (Statement s.input a s'.input n) := by
  replace h := Rule.ok_of_bind_of_ok rfl (Rule.ok_of_bind_of_ok rfl h)
  simp only [typed] at h
  replace h := Rule.ok_of_bind_of_ok rfl h
  obtain ⟨i, s₁, hi, h⟩ := Rule.ok_of_bind h
  obtain ⟨init, s₂, hinit, h⟩ := Rule.ok_of_bind h
  obtain ⟨_, s₃, hend, h⟩ := Rule.ok_of_bind h
  obtain ⟨rfl, rfl⟩ := Rule.ok_of_pure h
  obtain ⟨name, hinput⟩ := input_of_expect hi (by simp)
  rw [State.input_of_next_ne_eof (by simp [typed])]
  obtain ⟨rfl, rfl⟩ | ⟨e, rfl, t, us, n, assign, hn, hassign, value⟩ :=
    initializer?_sound he hinit
  · exact ⟨_, Nat.succ_pos _, ⟨hinput ▸ .declaration typed name (lineEnd_sound hend)⟩⟩
  · exact ⟨_, Nat.succ_lt_succ hn,
      ⟨hinput ▸ hassign ▸ .initialized typed name assign value (lineEnd_sound hend)⟩⟩

theorem statementOver_sound (he : expr.Sound (Expression 6) depth)
    (hb : body.Sound BlockBody depth) : (statementOver expr body).Sound Statement (depth + 1) := by
  intro s a s' h
  have hc := condition_sound he
  have hblock := block_sound hb
  obtain ⟨chosen, hchosen, answer⟩ :=
    Rule.eq_of_ok (Rule.ok_of_bind_of_ok rfl (Rule.ok_of_bind_of_ok rfl h))
  split at hchosen
  case h_1 si => exact branch_sound hc hblock si h
  case h_2 mientras => exact loop_sound hc hblock mientras h
  case h_3 haz => exact doLoop_sound hc hblock haz h
  case h_4 muestra => exact print_sound he muestra h
  case h_5 name => exact assignment_sound he name h
  case h_6 type typed => exact declaration_sound he typed h
  case h_7 =>
    subst hchosen
    contradiction

end statementOver

theorem statement_sound (depth : Nat) :
    (statement depth).Sound Statement (depth + 1) := by
  induction depth with
  | zero => exact statementOver_sound (expression_sound 0) sound_tooDeep
  | succ depth ih => exact statementOver_sound (expression_sound _) (blockBody_sound ih)

/-- A program ends where the input ends. -/
theorem next_of_program {s s' : State} {p : Program} (h : program s = .ok p s') :
    s'.next.kind = .eof := by
  obtain ⟨body, s₁, hbody, h⟩ := Rule.ok_of_bind h
  obtain ⟨-, rfl⟩ := Rule.ok_of_pure h
  exact of_decide_eq_true (statements_sound (statement_sound maxNesting) hbody).1

/-- A program that is read is derived, from the tokens that there were. -/
theorem program_sound {s s' : State} {p : Program} (h : program s = .ok p s') :
    ∃ n, n ≤ maxNesting ∧ Nonempty (Derivation s.input p n) := by
  have ends := next_of_program h
  obtain ⟨body, s₁, hbody, h⟩ := Rule.ok_of_bind h
  obtain ⟨rfl, rfl⟩ := Rule.ok_of_pure h
  obtain ⟨-, n, hn, ⟨statements⟩⟩ := statements_sound (statement_sound maxNesting) hbody
  rw [State.input_of_next_eof ends] at statements
  exact ⟨n, Nat.le_of_lt_succ hn, ⟨.intro statements ends⟩⟩

end PasoFrontEnd.Grammar
