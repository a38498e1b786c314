import PasoFrontEnd.Proofs.Grammar.Completeness
import PasoFrontEnd.Proofs.Grammar.Span
import PasoFrontEnd.Proofs.Tree.Listing

/-!
How high the trees of expressions are. The limit of nesting bounds them together with the length of
their chains: operators of one rank that follow each other take no nesting, but each of them makes
the tree higher by one. So a program that is parsed can have expressions of any height.
-/

namespace PasoFrontEnd

namespace Expr

/-- The number of nodes on the longest way from the root to a leaf. -/
def height : Expr → Nat
  | .literal _ _ | .named _ _ => 1
  | .negation operand _ => operand.height + 1
  | .operation _ left right _ => max left.height right.height + 1

/-- The expression and the operands of its operators, with theirs. -/
def parts : Expr → List Expr
  | .literal value location => [.literal value location]
  | .named name location => [.named name location]
  | .negation operand location => .negation operand location :: operand.parts
  | .operation op left right location =>
    .operation op left right location :: (left.parts ++ right.parts)

/-- The number of operations of a rank from the root on, each the left operand of the one before. -/
def chain (rank : Nat) : Expr → Nat
  | .operation op left _ _ => if op.rank = rank then left.chain rank + 1 else 0
  | _ => 0

/-- The length of the longest chain in the expression. -/
def longestChain : Expr → Nat
  | .literal _ _ | .named _ _ => 0
  | .negation operand _ => operand.longestChain
  | .operation op left right _ =>
    max (left.chain op.rank + 1) (max left.longestChain right.longestChain)

theorem chain_le_longestChain (rank : Nat) (e : Expr) : e.chain rank ≤ e.longestChain := by
  cases e with
  | literal _ _ | named _ _ | negation _ _ => exact Nat.zero_le _
  | operation op left right _ =>
      rw [chain, longestChain]
      split
      · next h => exact h ▸ Nat.le_max_left _ _
      · exact Nat.zero_le _

/-- Every operator has a rank of its own above that of the operands without operators. -/
theorem chain_zero (e : Expr) : e.chain 0 = 0 := by
  cases e with
  | literal _ _ | named _ _ | negation _ _ => rfl
  | operation op _ _ _ => cases op <;> rfl

end Expr

/-- The expressions of a statement itself, without those in its blocks. -/
def Stmt.expressions : Stmt → List Expr
  | .assignment _ value _ | .print value _ => [value]
  | .declaration _ _ init _ => init.toList
  | .branch condition _ _ _ | .loop condition _ _ | .doLoop _ condition _ => [condition]

def Block.expressions (b : Block) : List Expr := (Block.preorder b).flatMap Stmt.expressions

def Program.expressions (p : Program) : List Expr := Block.expressions p.statements

namespace Grammar

variable {rank n m : Nat} {ts rest : List Token}

/-- A chain takes no more than one rank does. -/
theorem mul_pred_add_chain_le {e : Expr} (within : e.longestChain ≤ m) (rank : Nat) :
    m * (rank - 1) + e.chain rank ≤ m * rank := by
  cases rank with
  | zero => rw [e.chain_zero]; exact Nat.le_refl _
  | succ rank =>
      have root := Nat.le_trans (e.chain_le_longestChain (rank + 1)) within
      rw [Nat.add_sub_cancel, Nat.mul_succ]
      omega

/-- The operands below the chain at the root are no higher than smaller ranks and less nesting
allow. -/
theorem Expression.height_le_chain {e : Expr} (h : Expression rank ts e rest n) (pos : 0 < m)
    (within : e.longestChain ≤ m) :
    e.height ≤ 1 + m * (rank - 1 + 6 * n) + e.chain rank := by
  simp only [Nat.mul_add, Nat.mul_left_comm m 6]
  induction h with
  | literal _ | named _ => exact Nat.le_add_right_of_le (Nat.le_add_right 1 _)
  | @group _ _ e _ _ n _ _ _ ih =>
      have inner := ih within
      have root := mul_pred_add_chain_le within loosest
      rw [show loosest = 6 from rfl] at *
      rw [Nat.mul_succ m n]
      omega
  | @negation _ _ e _ n _ _ ih =>
      have inner := ih within
      rw [e.chain_zero] at inner
      rw [Nat.mul_succ m n, Expr.height]
      omega
  | @operand rank _ _ _ _ _ ih =>
      have inner := ih within
      have root := mul_pred_add_chain_le within rank
      rw [Nat.add_sub_cancel]
      omega
  | @operation rank _ l _ _ r _ n k op _ operator _ ihl ihr =>
      simp only [Expr.longestChain, Nat.max_le] at within
      have left := ihl within.2.1
      have right := ihr within.2.2
      have root := mul_pred_add_chain_le within.2.2 rank
      have outer := Nat.mul_le_mul_left m (Nat.le_max_left n k)
      have outer' := Nat.mul_le_mul_left m (Nat.le_max_right n k)
      rw [Expr.height, Expr.chain, if_pos operator.rank_eq]
      rw [Nat.add_sub_cancel] at left ⊢
      omega

/-- Nesting and the longest chain bound the height. -/
theorem Expression.height_le {e : Expr} (h : Expression rank ts e rest n) :
    e.height ≤ 1 + max 1 e.longestChain * (rank + 6 * n) := by
  have chained := h.height_le_chain (Nat.le_max_left 1 _) (Nat.le_max_right 1 _)
  have root := mul_pred_add_chain_le (Nat.le_max_right 1 e.longestChain) rank
  rw [Nat.mul_add] at chained ⊢
  omega

/-- Some tokens are derived as the expression, with less nesting. -/
def Derived (n : Nat) (e : Expr) : Prop := ∃ us vs m, m < n ∧ Expression 6 us e vs m

theorem Derived.mono {e : Expr} (h : Derived n e) (le : n ≤ m) : Derived m e := by
  obtain ⟨us, vs, k, less, inner⟩ := h
  exact ⟨us, vs, k, Nat.lt_of_lt_of_le less le, inner⟩

theorem Expression.derived {e : Expr} (h : Expression 6 ts e rest n) : Derived (n + 1) e :=
  ⟨_, _, n, Nat.lt_succ_self n, h⟩

/-- Operands stand in no deeper nesting than the expression that they are parts of. -/
theorem Expression.derived_parts {e : Expr} (h : Expression rank ts e rest n) (bound : rank ≤ 6) :
    ∀ part ∈ e.parts, Derived (n + 1) part := by
  induction h with
  | @literal t value rest writes =>
      simpa [Expr.parts] using ((@Expression.literal t value rest writes).mono bound).derived
  | @named t rest name =>
      simpa [Expr.parts] using ((@Expression.named t rest name).mono bound).derived
  | group _ _ _ ih => exact fun part hpart => (ih (Nat.le_refl 6) part hpart).mono (Nat.le_succ _)
  | negation sign operand ih =>
      rw [Expr.parts, List.forall_mem_cons]
      exact ⟨((operand.negation sign).mono bound).derived,
        fun part hpart => (ih bound part hpart).mono (Nat.le_succ _)⟩
  | operand _ ih => exact ih (Nat.le_of_succ_le bound)
  | operation left operator right ihl ihr =>
      rw [Expr.parts, List.forall_mem_cons, List.forall_mem_append]
      refine ⟨((left.operation operator right).mono bound).derived,
        fun part hpart => (ihl bound part hpart).mono ?_,
        fun part hpart => (ihr (Nat.le_of_succ_le bound) part hpart).mono ?_⟩
      · exact Nat.succ_le_succ (Nat.le_max_left ..)
      · exact Nat.succ_le_succ (Nat.le_max_right ..)

theorem Derived.of_mem_parts {e part : Expr} (h : Derived n e) (hpart : part ∈ e.parts) :
    Derived n part := by
  obtain ⟨us, vs, m, less, inner⟩ := h
  exact (inner.derived_parts (Nat.le_refl 6) part hpart).mono less

theorem Condition.derived {c : Expr} : Condition ts c rest n → Derived n c
  | .intro _ inner _ => inner.derived

mutual

/-- The expressions of a statement and of its blocks are derived one level of nesting below it. -/
theorem Statement.derived {ts rest n} {s : Stmt} :
    Statement ts s rest n → ∀ e ∈ s.preorder.flatMap Stmt.expressions, Derived n e
  | .assignment _ _ value _ | .initialized _ _ _ value _ | .print _ value _ => by
      simpa [Stmt.preorder, Stmt.expressions] using value.derived
  | .declaration _ _ _ => by simp [Stmt.preorder, Stmt.expressions]
  | .branch _ condition body | .loop _ condition body => by
      simp only [Stmt.preorder, List.flatMap_cons, Stmt.expressions, List.singleton_append,
        List.forall_mem_cons]
      exact ⟨condition.derived.mono (Nat.le_max_left ..),
        fun e he => (body.derived e he).mono (Nat.le_max_right ..)⟩
  | .branchElse _ condition body _ otherwise => by
      simp only [Stmt.preorder, List.flatMap_cons, List.flatMap_append, Stmt.expressions,
        List.singleton_append, List.forall_mem_cons, List.forall_mem_append]
      refine ⟨condition.derived.mono (Nat.le_max_left ..), fun e he => ?_, fun e he => ?_⟩
      · exact (body.derived e he).mono (Nat.le_trans (Nat.le_max_left ..) (Nat.le_max_right ..))
      · exact (otherwise.derived e he).mono
          (Nat.le_trans (Nat.le_max_right ..) (Nat.le_max_right ..))
  | .doLoop _ body _ condition _ => by
      simp only [Stmt.preorder, List.flatMap_cons, Stmt.expressions, List.singleton_append,
        List.forall_mem_cons]
      exact ⟨condition.derived.mono (Nat.le_max_right ..),
        fun e he => (body.derived e he).mono (Nat.le_max_left ..)⟩

theorem IndentedBlock.derived {ts rest n} {b : Block} :
    IndentedBlock ts b rest n → ∀ e ∈ Block.expressions b, Derived n e
  | .intro _ _ _ body _ _ => fun e he => (body.derived e he).mono (Nat.le_succ _)

theorem Statements.derived {ts rest n} {b : Block} :
    Statements ts b rest n → ∀ e ∈ Block.expressions b, Derived n e
  | .nil _ => nofun
  | .cons _ first more => by
      rw [Block.expressions, Block.preorder, List.flatMap_append, List.forall_mem_append]
      exact ⟨fun e he => (first.derived e he).mono (Nat.le_max_left ..),
        fun e he => (more.derived e he).mono (Nat.le_max_right ..)⟩

end

/-- In a program that is parsed, no expression is higher than the limit of nesting and its longest
chain allow, and no operand in one either. -/
theorem height_le_of_parse {tokens : List Token} {p : Program} (parsed : parse tokens = .ok p) :
    ∀ e ∈ p.expressions.flatMap Expr.parts,
      e.height ≤ 1 + max 1 e.longestChain * (6 * maxNesting) := by
  intro e he
  obtain ⟨whole, hwhole, part⟩ := List.mem_flatMap.1 he
  obtain ⟨s', hok⟩ := parse_eq_ok_iff.1 parsed
  obtain ⟨n, hn, ⟨statements, _⟩⟩ := program_sound hok
  obtain ⟨us, vs, m, less, inner⟩ := (statements.derived whole hwhole).of_mem_parts part
  have deeper : 6 + 6 * m ≤ 6 * maxNesting := by omega
  exact Nat.le_trans inner.height_le (Nat.add_le_add_left (Nat.mul_le_mul_left _ deeper) 1)

theorem height_le_of_parse_countdown :
    parse countdown = .ok countdownTree ∧
      ∀ e ∈ countdownTree.expressions.flatMap Expr.parts,
        e.height ≤ 1 + max 1 e.longestChain * (6 * maxNesting) :=
  ⟨parse_countdown.2.1, height_le_of_parse parse_countdown.2.1⟩

/-- The tokens of the sum `x + x + x` with `n` operators, behind `x = `. -/
def summands : Nat → List Token
  | 0 => [⟨.identifier, "x", ⟨1, 5⟩⟩]
  | n + 1 => summands n ++
    [⟨.symbol .plus, "+", ⟨1, 4 * n + 7⟩⟩, ⟨.identifier, "x", ⟨1, 4 * n + 9⟩⟩]

def sum : Nat → Expr
  | 0 => .named "x" ⟨1, 5⟩
  | n + 1 => .operation .add (sum n) (.named "x" ⟨1, 4 * n + 9⟩) ⟨1, 4 * n + 7⟩

theorem height_sum (n : Nat) : (sum n).height = n + 1 := by
  induction n with
  | zero => rfl
  | succ n ih =>
      rw [sum, Expr.height, ih, Expr.height]
      omega

theorem spells_sum (n : Nat) : Spells 2 (summands n) (sum n) 0 := by
  induction n with
  | zero => exact fun _ => (Expression.named rfl).loosened
  | succ n ih =>
      intro rest
      rw [summands, List.append_assoc]
      exact .operation (ih _) .plus (Expression.named rfl).loosened

theorem kind_of_mem_summands (n : Nat) :
    ∀ t ∈ summands n, t.kind = .identifier ∨ t.kind = .symbol .plus := by
  induction n with
  | zero => simp [summands]
  | succ n ih =>
      simp only [summands, List.forall_mem_append, List.forall_mem_cons]
      simpa using ih

/-- Every sum is parsed, so the limit of nesting alone bounds no heights. -/
theorem heights_unbounded :
    ¬ ∃ bound, ∀ tokens p, parse tokens = .ok p → ∀ e ∈ p.expressions, e.height ≤ bound := by
  intro ⟨bound, low⟩
  let target : Token := ⟨.identifier, "x", ⟨1, 1⟩⟩
  let assign : Token := ⟨.symbol .assign, "=", ⟨1, 3⟩⟩
  let eof : Token := ⟨.eof, "", ⟨1, 4 * bound + 6⟩⟩
  let tokens := target :: assign :: summands bound ++ [eof]
  have value : Expression 6 (summands bound ++ [eof]) (sum bound) [eof] 0 :=
    (spells_sum bound [eof]).mono (by decide)
  have statement : Statement tokens (.assignment "x" (sum bound) ⟨1, 1⟩) [eof] 1 :=
    .assignment rfl rfl value (.ahead (.inr rfl))
  have ended : Ended tokens := by
    refine ⟨target :: assign :: summands bound, eof, rfl, rfl, ?_⟩
    simp only [List.forall_mem_cons]
    refine ⟨by decide, by decide, fun t ht => ?_⟩
    obtain kind | kind := kind_of_mem_summands bound t ht <;> simp [kind]
  have parsed : parse tokens = .ok ⟨[.assignment "x" (sum bound) ⟨1, 1⟩]⟩ :=
    ((parse_eq_ok_iff_derivation ended).1 _).2
      ⟨1, by decide, ⟨.intro (.cons .none statement (.nil .none)) rfl⟩⟩
  have bounded := low _ _ parsed (sum bound) (List.mem_singleton_self _)
  rw [height_sum] at bounded
  exact Nat.not_succ_le_self _ bounded

end Grammar

end PasoFrontEnd
