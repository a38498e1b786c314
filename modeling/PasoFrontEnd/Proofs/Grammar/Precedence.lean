import PasoFrontEnd.Proofs.Grammar.Completeness
import PasoFrontEnd.Proofs.Grammar.Span

/-!
Precedence and grouping, told from the tokens of an expression alone. Of the binary operators
outside all parentheses the rightmost one of those that bind loosest is the root, and the tokens on
its two sides give its operands; an expression without such an operator is a sign in front of an
operand, a group, or a single token. What the rule for expressions reads is read like this, and it
reads until no operator follows.
-/

namespace PasoFrontEnd.Grammar

/-- The kinds of tokens that end an operand: literals, names, and the end of a group. -/
def endsOperand : Token.Kind → Bool
  | .integer | .decimal | .text | .keyword .verdadero | .keyword .falso | .keyword .nulo
  | .identifier | .symbol .closeParen => true
  | _ => false

/-- How many more parentheses the tokens open than they close. -/
def openParens : List Token → Int
  | [] => 0
  | t :: ts =>
    (if t.kind = .symbol .openParen then 1 else if t.kind = .symbol .closeParen then -1 else 0) +
      openParens ts

/-- Behind the tokens `left` the token `t` is a binary operator of the given rank outside all
parentheses; a minus only if an operand ends in front of it. -/
structure Outer (left : List Token) (t : Token) (rank : Nat) (op : BinaryOp) : Prop where
  operator : Operator rank t.kind op
  outside : openParens left = 0
  binary : op = .sub → ∃ u ∈ left.getLast?, endsOperand u.kind

/-- Of the operators outside all parentheses, none binds looser than the one between `left` and
`right`, and those on its right bind tighter: `O` is looser than `Y`, then `==` and `!=`, then the
four comparisons by order, then `+` and `-`, then `*` and `/`. -/
structure Root (left : List Token) (t : Token) (right : List Token) (rank : Nat) (op : BinaryOp) :
    Prop where
  outer : Outer left t rank op
  left_le : ∀ l u r rank' op', left = l ++ u :: r → Outer l u rank' op' → rank' ≤ rank
  right_lt : ∀ l u r rank' op', right = l ++ u :: r → Outer (left ++ t :: l) u rank' op' →
    rank' < rank

/-- The tokens have no binary operator outside all parentheses. -/
def NoOuter (span : List Token) : Prop :=
  ∀ l t r rank op, span = l ++ t :: r → ¬ Outer l t rank op

/-- The tree of an expression by its tokens, with the trees that smaller expressions are given. -/
inductive Reading (gives : List Token → Expr → Prop) : List Token → Expr → Prop
  | operation {left t right rank op l r} (root : Root left t right rank op)
      (leftOperand : gives left l) (rightOperand : gives right r) :
      Reading gives (left ++ t :: right) (.operation op l r t.location)
  | negation {m span e} (none : NoOuter (m :: span)) (sign : m.kind = .symbol .minus)
      (operand : gives span e) :
      Reading gives (m :: span) (.negation e m.location)
  | group {o span c e} (none : NoOuter (o :: span ++ [c])) (opening : o.kind = .symbol .openParen)
      (inner : gives span e) (closing : c.kind = .symbol .closeParen) :
      Reading gives (o :: span ++ [c]) e
  | literal {t value} (none : NoOuter [t]) (writes : Writes t value) :
      Reading gives [t] (.literal value t.location)
  | named {t} (none : NoOuter [t]) (name : t.kind = .identifier) :
      Reading gives [t] (.named t.lexeme t.location)

theorem Reading.mono {gives gives' : List Token → Expr → Prop} {span : List Token} {e : Expr}
    (h : ∀ {ts e}, gives ts e → gives' ts e) (d : Reading gives span e) :
    Reading gives' span e := by
  cases d with
  | operation root left right => exact .operation root (h left) (h right)
  | negation none sign operand => exact .negation none sign (h operand)
  | group none opening inner closing => exact .group none opening (h inner) closing
  | literal none writes => exact .literal none writes
  | named none name => exact .named none name

variable {left right span : List Token} {t : Token} {op : BinaryOp} {rank rank' n : Nat} {e : Expr}

@[simp] theorem openParens_append (ts us : List Token) :
    openParens (ts ++ us) = openParens ts + openParens us := by
  induction ts with
  | nil => simp [openParens]
  | cons t ts ih => simp [openParens, ih, Int.add_assoc]

theorem openParens_singleton_operator (h : Operator rank t.kind op) : openParens [t] = 0 := by
  cases op <;> simp [openParens, h.kind_eq, BinaryOp.kind]

theorem Operator.not_endsOperand {kind : Token.Kind} (h : Operator rank kind op) :
    endsOperand kind = false := by
  cases h <;> rfl

theorem Writes.endsOperand {value : Literal} (h : Writes t value) : endsOperand t.kind := by
  cases h with
  | integer kind _ | decimal kind _ | text kind | verdadero kind | falso kind | nulo kind =>
      rw [kind]
      rfl

/-- Where a list is parted by one of its elements, another of its elements is on the left, is the
same, or is on the right. -/
theorem append_cons_eq_append_cons {α : Type} {l r l' r' : List α} {a b : α}
    (h : l ++ a :: r = l' ++ b :: r') :
    (∃ m, l = l' ++ b :: m) ∨ (l = l' ∧ a = b ∧ r = r') ∨
    ∃ m, l' = l ++ a :: m ∧ r = m ++ b :: r' := by
  obtain ⟨m, hl, hr⟩ | ⟨m, hl, hr⟩ := List.append_eq_append_iff.1 h
  · obtain ⟨rfl, hcons⟩ | ⟨m, rfl, hcons⟩ := List.cons_eq_append_iff.1 hr
    · obtain ⟨rfl, rfl⟩ := List.cons.inj hcons
      exact .inr (.inl ⟨by simpa using hl.symm, rfl, rfl⟩)
    · exact .inr (.inr ⟨m, hl, hcons⟩)
  · obtain ⟨rfl, hcons⟩ | ⟨m, rfl, -⟩ := List.cons_eq_append_iff.1 hr
    · obtain ⟨rfl, rfl⟩ := List.cons.inj hcons
      exact .inr (.inl ⟨by simpa using hl, rfl, rfl⟩)
    · exact .inl ⟨m, hl⟩

/-- Behind tokens that leave no parenthesis open and end no operand, an operator is what it is
without them. -/
theorem Outer.of_append {front : List Token} (h : Outer (front ++ left) t rank op)
    (matched : openParens front = 0) (ends : ∀ u ∈ front.getLast?, endsOperand u.kind = false) :
    Outer left t rank op where
  operator := h.operator
  outside := by simpa [matched] using h.outside
  binary minus := by
    obtain ⟨u, hu, ending⟩ := h.binary minus
    rw [List.getLast?_append] at hu
    cases hl : left.getLast? with
    | none =>
        rw [hl, Option.none_or] at hu
        simp [ends u hu] at ending
    | some v =>
        rw [hl, Option.some_or] at hu
        exact ⟨u, hu, ending⟩

/-- What the tokens of an expression are like: their parentheses match, an operand ends with them,
and the operators outside the parentheses have a rank up to the given one. -/
structure Phrase (rank : Nat) (span : List Token) : Prop where
  matched : openParens span = 0
  inside : ∀ l r, span = l ++ r → 0 ≤ openParens l
  ends : ∃ t ∈ span.getLast?, endsOperand t.kind
  ranked : ∀ l t r rank' op, span = l ++ t :: r → Outer l t rank' op → rank' ≤ rank

theorem Phrase.mono (h : Phrase rank span) : Phrase (rank + 1) span :=
  { h with
    ranked := fun l t r rank' op hspan outer =>
      Nat.le_succ_of_le (h.ranked l t r rank' op hspan outer) }

theorem Phrase.of_noOuter (matched : openParens span = 0)
    (inside : ∀ l r, span = l ++ r → 0 ≤ openParens l)
    (ends : ∃ t ∈ span.getLast?, endsOperand t.kind) (none : NoOuter span) : Phrase 0 span where
  matched := matched
  inside := inside
  ends := ends
  ranked l t r rank' op hspan outer := absurd outer (none l t r rank' op hspan)

theorem Phrase.noOuter (h : Phrase 0 span) : NoOuter span := fun l t r rank' op hspan outer =>
  absurd (h.ranked l t r rank' op hspan outer) (Nat.not_le_of_gt outer.operator.rank_pos)

theorem noOuter_singleton (h : endsOperand t.kind) : NoOuter [t] := by
  intro l u r rank op hspan outer
  obtain ⟨-, hcons⟩ | ⟨l', -, hnil⟩ := List.cons_eq_append_iff.1 hspan
  · obtain ⟨rfl, -⟩ := List.cons.inj hcons
    rw [outer.operator.not_endsOperand] at h
    contradiction
  · simp at hnil

/-- A literal or a name. -/
theorem phrase_singleton (h : endsOperand t.kind) (name : t.kind ≠ .symbol .closeParen) :
    Phrase 0 [t] := by
  have opening : t.kind ≠ .symbol .openParen := by
    intro kind
    simp [kind, endsOperand] at h
  have matched : openParens [t] = 0 := by simp [openParens, name, opening]
  refine .of_noOuter matched (fun l r hspan => ?_) ⟨t, rfl, h⟩ (noOuter_singleton h)
  obtain ⟨rfl, -⟩ | ⟨rfl, -⟩ := List.singleton_eq_append_iff.1 hspan
  · exact Int.le_refl _
  · exact Int.le_of_eq matched.symm

theorem getLast?_cons_of_phrase (h : Phrase rank span) (t : Token) :
    (t :: span).getLast? = span.getLast? := by
  obtain ⟨u, hu, -⟩ := h.ends
  cases span with
  | nil => contradiction
  | cons v span => exact List.getLast?_cons_cons

theorem phrase_negation (sign : t.kind = .symbol .minus) (operand : Phrase 0 span) :
    Phrase 0 (t :: span) := by
  have binary : Operator 2 t.kind .sub := sign ▸ .minus
  have matched : openParens [t] = 0 := openParens_singleton_operator binary
  have notEnding : endsOperand t.kind = false := binary.not_endsOperand
  refine .of_noOuter ?_ (fun l r hspan => ?_) ?_ (fun l u r rank op hspan outer => ?_)
  · rw [← List.singleton_append, openParens_append, matched, operand.matched]
    rfl
  · obtain ⟨rfl, -⟩ | ⟨l', rfl, hrest⟩ := List.cons_eq_append_iff.1 hspan
    · exact Int.le_refl _
    · rw [← List.singleton_append, openParens_append, matched, Int.zero_add]
      exact operand.inside l' r hrest
  · rw [getLast?_cons_of_phrase operand]
    exact operand.ends
  · obtain ⟨rfl, hcons⟩ | ⟨l', rfl, hrest⟩ := List.cons_eq_append_iff.1 hspan
    · -- the sign itself has nothing in front of it that it could be binary behind
      obtain ⟨rfl, -⟩ := List.cons.inj hcons
      have same : op = .sub := Option.some.inj (outer.operator.ofKind?.symm.trans binary.ofKind?)
      obtain ⟨v, hv, -⟩ := outer.binary same
      contradiction
    · have behind : Outer ([t] ++ l') u rank op := outer
      exact operand.noOuter l' u r rank op hrest
        (behind.of_append matched (by simpa using notEnding))

theorem phrase_group {o c : Token} (opening : o.kind = .symbol .openParen)
    (inner : Phrase rank span) (closing : c.kind = .symbol .closeParen) :
    Phrase 0 (o :: span ++ [c]) := by
  have start (ts : List Token) : openParens (o :: ts) = 1 + openParens ts := by
    simp [openParens, opening]
  have stop : openParens [c] = -1 := by simp [openParens, closing]
  have matched : openParens (o :: span ++ [c]) = 0 := by
    rw [openParens_append, start, inner.matched, stop]
    rfl
  have notOperator (rank : Nat) (op : BinaryOp) :
      ¬ Operator rank o.kind op ∧ ¬ Operator rank c.kind op := by
    rw [opening, closing]
    exact ⟨nofun, nofun⟩
  refine .of_noOuter matched (fun l r hspan => ?_) ⟨c, List.getLast?_concat, by rw [closing]; rfl⟩
    (fun l u r rank op hspan outer => ?_)
  · obtain ⟨rfl, -⟩ | ⟨l', rfl, hrest⟩ := List.cons_eq_append_iff.1 hspan
    · exact Int.le_refl _
    · obtain ⟨m, rfl, hlast⟩ | ⟨m, rfl, -⟩ := List.append_eq_append_iff.1 hrest
      · obtain ⟨rfl, -⟩ | ⟨rfl, -⟩ := List.singleton_eq_append_iff.1 hlast
        · rw [start, List.append_nil, inner.matched]
          decide
        · exact Int.le_of_eq matched.symm
      · have := inner.inside l' m rfl
        rw [start]
        omega
  · obtain ⟨rfl, hcons⟩ | ⟨l', rfl, hrest⟩ := List.cons_eq_append_iff.1 hspan
    · obtain ⟨rfl, -⟩ := List.cons.inj hcons
      exact (notOperator rank op).1 outer.operator
    · obtain ⟨m, rfl⟩ | ⟨rfl, rfl, -⟩ | ⟨m, -, hlast⟩ := append_cons_eq_append_cons hrest
      · -- inside the group at least one parenthesis is open
        have := inner.inside l' (u :: m) rfl
        have := outer.outside
        rw [start] at this
        omega
      · exact (notOperator rank op).2 outer.operator
      · simp at hlast

section operation

variable (operator : Operator (rank + 1) t.kind op) (leftPhrase : Phrase (rank + 1) left)
  (rightPhrase : Phrase rank right)
include operator leftPhrase

theorem outer_of_right {l : List Token} {u : Token} {op' : BinaryOp}
    (h : Outer (left ++ t :: l) u rank' op') : Outer l u rank' op' := by
  rw [List.append_cons] at h
  refine h.of_append ?_ ?_
  · rw [openParens_append, leftPhrase.matched, openParens_singleton_operator operator]
    rfl
  · simpa using operator.not_endsOperand

include rightPhrase

theorem root_operation : Root left t right (rank + 1) op where
  outer := ⟨operator, leftPhrase.matched, fun _ => leftPhrase.ends⟩
  left_le := leftPhrase.ranked
  right_lt l u r rank' op' hspan outer := Nat.lt_succ_of_le
    (rightPhrase.ranked l u r rank' op' hspan (outer_of_right operator leftPhrase outer))

theorem phrase_operation : Phrase (rank + 1) (left ++ t :: right) where
  matched := by
    rw [List.append_cons, openParens_append, openParens_append, leftPhrase.matched,
      rightPhrase.matched, openParens_singleton_operator operator]
    rfl
  inside l r hspan := by
    obtain ⟨m, rfl, hrest⟩ | ⟨m, rfl, -⟩ := List.append_eq_append_iff.1 hspan
    · rw [openParens_append, leftPhrase.matched, Int.zero_add]
      obtain ⟨rfl, -⟩ | ⟨m, rfl, hright⟩ := List.cons_eq_append_iff.1 hrest
      · exact Int.le_refl _
      · rw [← List.singleton_append, openParens_append, openParens_singleton_operator operator,
          Int.zero_add]
        exact rightPhrase.inside m r hright
    · exact leftPhrase.inside l m rfl
  ends := by
    obtain ⟨u, hu, ending⟩ := rightPhrase.ends
    refine ⟨u, ?_, ending⟩
    rw [List.getLast?_append, getLast?_cons_of_phrase rightPhrase, hu, Option.some_or]
    rfl
  ranked l u r rank' op' hspan outer := by
    have root := root_operation operator leftPhrase rightPhrase
    obtain ⟨m, rfl⟩ | ⟨rfl, rfl, rfl⟩ | ⟨m, rfl, rfl⟩ := append_cons_eq_append_cons hspan
    · exact leftPhrase.ranked l u m rank' op' rfl outer
    · have same := outer.operator.ofKind?.symm.trans operator.ofKind?
      cases same
      exact Nat.le_of_eq (outer.operator.rank_eq.symm.trans operator.rank_eq)
    · exact Nat.le_of_lt (root.right_lt m u r rank' op' rfl outer)

end operation

/-- The tokens are those of an expression, within the given nesting. -/
def Derives (n : Nat) (span : List Token) (e : Expr) : Prop := ∃ m, m ≤ n ∧ Spells 6 span e m

theorem Spells.derives {m : Nat} (h : Spells rank span e m) (ranked : rank ≤ 6) (le : m ≤ n) :
    Derives n span e :=
  ⟨m, le, fun rest => (h rest).mono ranked⟩

/-- An expression that is derived is read off its tokens. -/
theorem Expression.reading {ts rest : List Token} (h : Expression rank ts e rest n) :
    ∃ span, ts = span ++ rest ∧ Phrase rank span ∧ Reading (Derives n) span e := by
  suffices parts : ∃ span, ts = span ++ rest ∧ Spells rank span e n ∧
      (Phrase rank span ∧ Reading (Derives n) span e) by
    obtain ⟨span, hts, -, phrase, reading⟩ := parts
    exact ⟨span, hts, phrase, reading⟩
  refine h.span_induction
    (motive := fun rank span e n => Phrase rank span ∧ Reading (Derives n) span e)
    ?literal ?named ?group ?negation ?operand ?operation
  case literal =>
    intro t value writes
    have name : t.kind ≠ .symbol .closeParen := by cases writes <;> simp_all
    exact ⟨phrase_singleton writes.endsOperand name,
      .literal (noOuter_singleton writes.endsOperand) writes⟩
  case named =>
    intro t name
    have ends : endsOperand t.kind := by rw [name]; rfl
    exact ⟨phrase_singleton ends (by simp [name]), .named (noOuter_singleton ends) name⟩
  case group =>
    intro o c span e n opening spells inner closing
    have phrase := phrase_group opening inner.1 closing
    have derives := spells.derives (Nat.le_refl _) (Nat.le_succ n)
    exact ⟨phrase, .group phrase.noOuter opening derives closing⟩
  case negation =>
    intro m span e n sign spells operand
    have phrase := phrase_negation sign operand.1
    have derives := spells.derives (Nat.zero_le _) (Nat.le_succ n)
    exact ⟨phrase, .negation phrase.noOuter sign derives⟩
  case operand =>
    intro rank span e n operand
    exact ⟨operand.1.mono, operand.2⟩
  case operation =>
    intro t op rank left l right r n m spellsLeft left operator spellsRight right
    have leftDerives := spellsLeft.derives operator.rank_le (Nat.le_max_left n m)
    have rightDerives :=
      spellsRight.derives (Nat.le_of_succ_le operator.rank_le) (Nat.le_max_right n m)
    exact ⟨phrase_operation operator left.1 right.1,
      .operation (root_operation operator left.1 right.1) leftDerives rightDerives⟩

/-- For these tokens, with nothing behind them but the end of the input, the rule for expressions
gives the tree. -/
def Gives (depth : Nat) (span : List Token) (e : Expr) : Prop :=
  ∀ eof : Token, eof.kind = .eof → (expression depth).Reads (span ++ [eof]) e [eof]

theorem Derives.gives {depth : Nat} (h : Derives n span e) (hn : n < depth) :
    Gives depth span e := by
  intro eof kind
  obtain ⟨m, hm, spells⟩ := h
  have ends : LineEnd [eof] [eof] := .ahead (.inr kind)
  exact reads_expression (spells [eof]) (Nat.lt_of_le_of_lt hm hn) fun _ => ends.loose

/-- No operator of a rank up to the given one comes next. -/
def Exhausted (rank : Nat) (s : State) : Prop :=
  ∀ rank' op, Operator rank' s.next.kind op → rank < rank'

theorem exhausted_joinedFrom {operand : Rule Expr} {depth : Nat}
    (ho : operand.Sound (Expression rank) depth)
    (tight : ∀ {s s' : State} {e}, operand s = .ok e s' → Exhausted rank s') {s s' : State}
    {e left : Expr} (ends : Exhausted rank s)
    (h : joinedFrom (rank + 1) operand left s = .ok e s') : Exhausted (rank + 1) s' := by
  fun_induction joinedFrom (rank + 1) operand left s with
  | case1 left s hnone =>
      cases h
      intro rank' op operator
      refine Nat.lt_of_le_of_ne (ends rank' op operator) fun ranked => ?_
      rw [operator.ofKind?] at hnone
      simp [operator.rank_eq, ranked] at hnone
  | case2 => contradiction
  | case3 =>
      rename_i hright _ _ ih
      exact ih (tight hright) h
  | case4 =>
      rename_i s op hop right after hright _ notLess
      -- the operator and its right operand have tokens of their own, so the loop went on
      obtain ⟨m, -, ⟨hr⟩⟩ := ho hright
      have hkind := BinaryOp.kind_eq_of_ofKind? (Option.filter_eq_some_iff.1 hop).1
      have hlen := congrArg List.length (State.input_of_next_ne_eof (hkind ▸ kind_ne_eof op))
      have hlt := hr.length_lt
      simp only [State.length_input, List.length_cons] at hlen hlt
      omega

theorem exhausted_operation {operand : Rule Expr} {depth : Nat}
    (ho : operand.Sound (Expression 0) depth) (rank : Nat) {s s' : State} {e : Expr}
    (h : operation operand rank s = .ok e s') : Exhausted rank s' := by
  induction rank generalizing s e s' with
  | zero => exact fun _ _ operator => operator.rank_pos
  | succ rank ih =>
      obtain ⟨left, s₁, hleft, h⟩ := Rule.ok_of_bind h
      exact exhausted_joinedFrom (operation_sound ho rank) ih (ih hleft) h

/-- What the rule for expressions reads is given by its tokens: its root is the rightmost of the
operators outside all parentheses that bind loosest, between the trees of the tokens on its two
sides; without such an operator it is a sign in front of an operand, a group or a single token. No
operator is left behind it. -/
theorem reading_of_expression {depth : Nat} {s s' : State} {e : Expr}
    (h : expression depth s = .ok e s') :
    ∃ span, s.input = span ++ s'.input ∧ Reading (Gives depth) span e ∧
      ∀ rank op, ¬ Operator rank s'.next.kind op := by
  obtain ⟨n, hn, ⟨derived⟩⟩ := expression_sound depth h
  obtain ⟨span, hinput, -, reading⟩ := derived.reading
  refine ⟨span, hinput, reading.mono fun derives => derives.gives hn, fun rank op operator => ?_⟩
  cases depth with
  | zero => contradiction
  | succ depth =>
      have exhausted := exhausted_operation (unary_sound depth) loosest h
      exact absurd (exhausted rank op operator) (Nat.not_lt_of_le operator.rank_le)

/-- `a - b * -(c O d) - 2`, in front of the end of a group. -/
def difference : List Token :=
  [⟨.identifier, "a", ⟨1, 2⟩⟩, ⟨.symbol .minus, "-", ⟨1, 4⟩⟩, ⟨.identifier, "b", ⟨1, 6⟩⟩,
   ⟨.symbol .star, "*", ⟨1, 8⟩⟩, ⟨.symbol .minus, "-", ⟨1, 10⟩⟩, ⟨.symbol .openParen, "(", ⟨1, 11⟩⟩,
   ⟨.identifier, "c", ⟨1, 12⟩⟩, ⟨.keyword .o, "O", ⟨1, 14⟩⟩, ⟨.identifier, "d", ⟨1, 16⟩⟩,
   ⟨.symbol .closeParen, ")", ⟨1, 17⟩⟩, ⟨.symbol .minus, "-", ⟨1, 19⟩⟩, ⟨.integer, "2", ⟨1, 21⟩⟩,
   ⟨.symbol .closeParen, ")", ⟨1, 22⟩⟩, ⟨.eof, "", ⟨1, 23⟩⟩]

def differenceTree : Expr :=
  .operation .sub
    (.operation .sub (.named "a" ⟨1, 2⟩)
      (.operation .mul (.named "b" ⟨1, 6⟩)
        (.negation (.operation .or (.named "c" ⟨1, 12⟩) (.named "d" ⟨1, 16⟩) ⟨1, 14⟩) ⟨1, 10⟩)
        ⟨1, 8⟩)
      ⟨1, 4⟩)
    (.literal (.integer 2) ⟨1, 21⟩) ⟨1, 19⟩

theorem reading_difference :
    ∃ s', expression maxNesting (.ofTokens difference) = .ok differenceTree s' ∧
      ∃ span, (State.ofTokens difference).input = span ++ s'.input ∧
        Reading (Gives maxNesting) span differenceTree ∧
        ∀ rank op, ¬ Operator rank s'.next.kind op := by
  have ended : Ended difference := ⟨difference.dropLast, ⟨.eof, "", ⟨1, 23⟩⟩, rfl, rfl, by decide⟩
  have choice : Expression 6 (difference.drop 6)
      (.operation .or (.named "c" ⟨1, 12⟩) (.named "d" ⟨1, 16⟩) ⟨1, 14⟩) (difference.drop 9) 0 :=
    .operation (Expression.named rfl).loosened .o (Expression.named rfl).loosened
  have product : Expression 1 (difference.drop 2)
      (.operation .mul (.named "b" ⟨1, 6⟩)
        (.negation (.operation .or (.named "c" ⟨1, 12⟩) (.named "d" ⟨1, 16⟩) ⟨1, 14⟩) ⟨1, 10⟩)
        ⟨1, 8⟩) (difference.drop 10) 2 :=
    .operation (Expression.named rfl).loosened .star
      (.negation rfl (.group rfl choice rfl))
  have derivation : Expression 2 difference differenceTree (difference.drop 12) 2 :=
    .operation (.operation (Expression.named rfl).loosened .minus product) .minus
      (Expression.literal (.integer rfl rfl)).loosened
  have reads : (expression maxNesting).Reads difference differenceTree (difference.drop 12) :=
    reads_expression (derivation.mono (by decide)) (by decide) fun _ => loose_of_closeParen rfl
  obtain ⟨s', hok, -⟩ := reads (input_ofTokens ended)
  exact ⟨s', hok, reading_of_expression hok⟩

end PasoFrontEnd.Grammar
