import PasoFrontEnd.Grammar.Statement

/-!
The grammar of PASO as derivations of trees from token lists. A relation holds of a list, a tree,
the rest of the list behind the tokens of the tree, and the nesting of the derivation: the greatest
number of blocks, groups, signs and whole expressions of a statement that stand inside each other.
Rules of the grammar look at no token behind the rest, and the end of a statement at the first token
of it.

Derivations of statements are data, so that facts about the tokens a tree does not keep can be
stated of them. The limit of nesting plays no part here.
-/

namespace PasoFrontEnd.Grammar

/-- The values that tokens of literals write. -/
inductive Writes : Token → Literal → Prop
  | integer {t n} (kind : t.kind = .integer) (value : Decimal.readInt64? t.lexeme = some n) :
      Writes t (.integer n)
  | decimal {t x} (kind : t.kind = .decimal) (value : Decimal.readFloat? t.lexeme = some x) :
      Writes t (.decimal x)
  | text {t} (kind : t.kind = .text) : Writes t (.text t.lexeme)
  | verdadero {t} (kind : t.kind = .keyword .verdadero) : Writes t (.boolean true)
  | falso {t} (kind : t.kind = .keyword .falso) : Writes t (.boolean false)
  | nulo {t} (kind : t.kind = .keyword .nulo) : Writes t .null

/-- The operators between two operands: the rank of each and the kind of token that it is written
with. The smaller its rank, the tighter an operator binds. -/
inductive Operator : Nat → Token.Kind → BinaryOp → Prop
  | star : Operator 1 (.symbol .star) .mul
  | slash : Operator 1 (.symbol .slash) .div
  | plus : Operator 2 (.symbol .plus) .add
  | minus : Operator 2 (.symbol .minus) .sub
  | greater : Operator 3 (.symbol .greater) .gt
  | less : Operator 3 (.symbol .less) .lt
  | atLeast : Operator 3 (.symbol .atLeast) .ge
  | atMost : Operator 3 (.symbol .atMost) .le
  | equal : Operator 4 (.symbol .equal) .eq
  | unequal : Operator 4 (.symbol .unequal) .ne
  | y : Operator 5 (.keyword .y) .and
  | o : Operator 6 (.keyword .o) .or

/-- Expressions by rank, from 0 to 6. Rank 0 holds literals, names, groups and signed operands; a
greater rank holds operations of that rank, with the left operand of the same and the right operand
of the next smaller rank. -/
inductive Expression : Nat → List Token → Expr → List Token → Nat → Prop
  | literal {t value rest} (writes : Writes t value) :
      Expression 0 (t :: rest) (.literal value t.location) rest 0
  | named {t rest} (name : t.kind = .identifier) :
      Expression 0 (t :: rest) (.named t.lexeme t.location) rest 0
  | group {o ts e c rest n} (opening : o.kind = .symbol .openParen)
      (inner : Expression 6 ts e (c :: rest) n) (closing : c.kind = .symbol .closeParen) :
      Expression 0 (o :: ts) e rest (n + 1)
  | negation {m ts e rest n} (sign : m.kind = .symbol .minus) (operand : Expression 0 ts e rest n) :
      Expression 0 (m :: ts) (.negation e m.location) rest (n + 1)
  | operand {rank ts e rest n} (tighter : Expression rank ts e rest n) :
      Expression (rank + 1) ts e rest n
  | operation {rank ts l t us r rest n m op} (left : Expression (rank + 1) ts l (t :: us) n)
      (operator : Operator (rank + 1) t.kind op)
      (right : Expression rank us r rest m) :
      Expression (rank + 1) ts (.operation op l r t.location) rest (max n m)

/-- An expression in parentheses that belong to the statement. -/
inductive Condition : List Token → Expr → List Token → Nat → Prop
  | intro {o ts e c rest n} (opening : o.kind = .symbol .openParen)
      (inner : Expression 6 ts e (c :: rest) n) (closing : c.kind = .symbol .closeParen) :
      Condition (o :: ts) e rest (n + 1)

/-- Any number of newlines. -/
inductive Newlines : List Token → List Token → Prop
  | none {rest} : Newlines rest rest
  | cons {t ts rest} (newline : t.kind = .newline) (more : Newlines ts rest) :
      Newlines (t :: ts) rest

/-- The end of a statement on one line: a newline, or nothing in front of the end of a block or of
the input. -/
inductive LineEnd : List Token → List Token → Prop
  | newline {t rest} (newline : t.kind = .newline) : LineEnd (t :: rest) rest
  | ahead {t rest} (closing : t.kind = .dedent ∨ t.kind = .eof) : LineEnd (t :: rest) (t :: rest)

mutual

inductive Statement : List Token → Stmt → List Token → Nat → Type
  | assignment {t a ts e us rest n} (name : t.kind = .identifier)
      (assign : a.kind = .symbol .assign)
      (value : Expression 6 ts e us n) (ends : LineEnd us rest) :
      Statement (t :: a :: ts) (.assignment t.lexeme e t.location) rest (n + 1)
  | declaration {t type i ts rest} (typed : t.kind = .keyword (.typeName type))
      (name : i.kind = .identifier) (ends : LineEnd ts rest) :
      Statement (t :: i :: ts) (.declaration type i.lexeme none t.location) rest 0
  | initialized {t type i a ts e us rest n} (typed : t.kind = .keyword (.typeName type))
      (name : i.kind = .identifier) (assign : a.kind = .symbol .assign)
      (value : Expression 6 ts e us n) (ends : LineEnd us rest) :
      Statement (t :: i :: a :: ts) (.declaration type i.lexeme (some e) t.location) rest (n + 1)
  | print {t ts e us rest n} (muestra : t.kind = .keyword .muestra)
      (value : Expression 6 ts e us n) (ends : LineEnd us rest) :
      Statement (t :: ts) (.print e t.location) rest (n + 1)
  | branch {t ts c us b rest n m} (si : t.kind = .keyword .si) (condition : Condition ts c us n)
      (body : IndentedBlock us b rest m) :
      Statement (t :: ts) (.branch c b none t.location) rest (max n m)
  | branchElse {t ts c us b o vs b' rest n m k} (si : t.kind = .keyword .si)
      (condition : Condition ts c us n) (body : IndentedBlock us b (o :: vs) m)
      (other : o.kind = .keyword .siNo ∨ o.kind = .keyword .deLoContrario)
      (otherwise : IndentedBlock vs b' rest k) :
      Statement (t :: ts) (.branch c b (some b') t.location) rest (max n (max m k))
  | loop {t ts c us b rest n m} (mientras : t.kind = .keyword .mientras)
      (condition : Condition ts c us n) (body : IndentedBlock us b rest m) :
      Statement (t :: ts) (.loop c b t.location) rest (max n m)
  | doLoop {t ts b w us c vs rest n m} (haz : t.kind = .keyword .haz)
      (body : IndentedBlock ts b (w :: us) n) (mientras : w.kind = .keyword .mientras)
      (condition : Condition us c vs m) (ends : LineEnd vs rest) :
      Statement (t :: ts) (.doLoop b c t.location) rest (max n m)

/-- Newlines, the marker of the beginning, at least one statement, and the marker of the end. -/
inductive IndentedBlock : List Token → Block → List Token → Nat → Type
  | intro {t ts i us b d rest n} (newline : t.kind = .newline) (more : Newlines ts (i :: us))
      (opened : i.kind = .indent) (body : Statements us b (d :: rest) n) (nonempty : b ≠ [])
      (closed : d.kind = .dedent) :
      IndentedBlock (t :: ts) b rest (n + 1)

/-- Statements, with newlines anywhere between them. -/
inductive Statements : List Token → Block → List Token → Nat → Type
  | nil {ts rest} (blank : Newlines ts rest) : Statements ts [] rest 0
  | cons {ts us s vs b rest n m} (blank : Newlines ts us) (first : Statement us s vs n)
      (more : Statements vs b rest m) :
      Statements ts (s :: b) rest (max n m)

end

/-- A whole program: statements up to the end of the input. -/
inductive Derivation : List Token → Program → Nat → Type
  | intro {ts b t n} (body : Statements ts b [t] n) (ends : t.kind = .eof) : Derivation ts ⟨b⟩ n

section operator

variable {rank : Nat} {kind : Token.Kind} {op : BinaryOp}

/-- The tables of the rules for expressions agree with the grammar. -/
theorem operator_iff : Operator rank kind op ↔
    BinaryOp.ofKind? kind = some op ∧ op.rank = rank := by
  constructor
  · intro h
    cases h <;> exact ⟨rfl, rfl⟩
  · rintro ⟨found, rfl⟩
    rw [BinaryOp.kind_eq_of_ofKind? found]
    cases op <;> constructor

theorem Operator.ofKind? (h : Operator rank kind op) : BinaryOp.ofKind? kind = some op :=
  (operator_iff.1 h).1

theorem Operator.kind_eq (h : Operator rank kind op) : kind = op.kind :=
  BinaryOp.kind_eq_of_ofKind? h.ofKind?

theorem Operator.rank_eq (h : Operator rank kind op) : op.rank = rank := (operator_iff.1 h).2

theorem Operator.exists_of_kind (h : kind = op.kind) : ∃ rank, Operator (rank + 1) kind op := by
  subst h
  cases op <;> exact ⟨_, by constructor⟩

theorem Operator.rank_pos (h : Operator rank kind op) : 0 < rank := by
  cases h <;> decide

theorem Operator.rank_le (h : Operator rank kind op) : rank ≤ 6 := by
  cases h <;> decide

end operator

variable {rank n : Nat} {ts rest : List Token}

theorem Expression.length_lt {e : Expr} (h : Expression rank ts e rest n) :
    rest.length < ts.length := by
  induction h with
  | literal _ | named _ => exact Nat.lt_succ_self _
  | group _ _ _ ih | negation _ _ ih =>
      simp only [List.length_cons] at ih ⊢
      omega
  | operand _ ih => exact ih
  | operation _ _ _ ihl ihr =>
      simp only [List.length_cons] at ihl
      omega

theorem Condition.length_lt {c : Expr} : Condition ts c rest n → rest.length < ts.length
  | .intro _ inner _ => by
      have := inner.length_lt
      simp only [List.length_cons] at this ⊢
      omega

theorem Newlines.trans {us : List Token} (h : Newlines ts us) (h' : Newlines us rest) :
    Newlines ts rest := by
  induction h with
  | none => exact h'
  | cons newline _ ih => exact .cons newline (ih h')

theorem Newlines.length_le (h : Newlines ts rest) : rest.length ≤ ts.length := by
  induction h with
  | none => exact Nat.le_refl _
  | cons _ _ ih => exact Nat.le_succ_of_le ih

theorem LineEnd.length_le : LineEnd ts rest → rest.length ≤ ts.length
  | .newline _ => Nat.le_succ _
  | .ahead _ => Nat.le_refl _

mutual

/-- A statement has a token of its own. -/
theorem Statement.length_lt {ts rest n} {s : Stmt} :
    Statement ts s rest n → rest.length < ts.length
  | .assignment _ _ value ends | .initialized _ _ _ value ends | .print _ value ends => by
      have := value.length_lt
      have := ends.length_le
      simp only [List.length_cons]
      omega
  | .declaration _ _ ends => by
      have := ends.length_le
      simp only [List.length_cons]
      omega
  | .branch _ condition body | .loop _ condition body => by
      have := condition.length_lt
      have := body.length_lt
      simp only [List.length_cons]
      omega
  | .branchElse _ condition body _ otherwise => by
      have := condition.length_lt
      have := body.length_lt
      have := otherwise.length_lt
      simp only [List.length_cons] at *
      omega
  | .doLoop _ body _ condition ends => by
      have := body.length_lt
      have := condition.length_lt
      have := ends.length_le
      simp only [List.length_cons] at *
      omega

theorem IndentedBlock.length_lt {ts rest n} {b : Block} :
    IndentedBlock ts b rest n → rest.length < ts.length
  | .intro _ more _ body _ _ => by
      have := more.length_le
      have := body.length_le
      simp only [List.length_cons] at *
      omega

theorem Statements.length_le {ts rest n} {b : Block} :
    Statements ts b rest n → rest.length ≤ ts.length
  | .nil blank => blank.length_le
  | .cons blank first more => by
      have := blank.length_le
      have := first.length_lt
      have := more.length_le
      omega

end

end PasoFrontEnd.Grammar
