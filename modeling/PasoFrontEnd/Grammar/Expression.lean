import PasoFrontEnd.Decimal.Text
import PasoFrontEnd.Grammar.Rule
import PasoFrontEnd.Tree.Basic

/-!
Rules for expressions. Binary operators bind by their rank and group to the left; a sign stands
before an operand that has signs of its own. The number that the rules recurse on is the depth that
is left: every sign and every group takes one level of it.
-/

namespace PasoFrontEnd.Grammar

def expressionStart : List Token.Kind :=
  [.integer, .decimal, .text, .keyword .verdadero, .keyword .falso, .keyword .nulo, .identifier,
   .symbol .openParen, .symbol .minus]

/-- Continues an expression by operators of one rank and their right operands. -/
def joinedFrom (rank : Nat) (operand : Rule Expr) (left : Expr) (s : State) :
    EStateM.Result SyntaxError State Expr :=
  match (BinaryOp.ofKind? s.next.kind).filter (·.rank = rank) with
  | none => .ok left s
  | some op =>
    match operand s.advance with
    | .error e after => .error e after
    | .ok right after =>
      let whole : Expr := .operation op left right s.next.location
      if after.left < s.left then joinedFrom rank operand whole after
      else .ok whole after
termination_by s.left

/-- Operands joined by operators of one rank, grouped to the left. -/
def joined (rank : Nat) (operand : Rule Expr) : Rule Expr := do
  let left ← operand
  joinedFrom rank operand left

/-- Operands joined by operators up to a rank. -/
def operation (operand : Rule Expr) : Nat → Rule Expr
  | 0 => operand
  | rank + 1 => joined (rank + 1) (operation operand rank)

def loosest : Nat := BinaryOp.or.rank

/-- The value that a token of a literal writes: `none` if it is no literal, and `some none` if its
lexeme writes no value. -/
def literal? (t : Token) : Option (Option Literal) :=
  match t.kind with
  | .integer => some ((Decimal.readInt64? t.lexeme).map .integer)
  | .decimal => some ((Decimal.readFloat? t.lexeme).map .decimal)
  | .text => some (some (.text t.lexeme))
  | .keyword .verdadero => some (some (.boolean true))
  | .keyword .falso => some (some (.boolean false))
  | .keyword .nulo => some (some .null)
  | _ => none

/-- A literal, a name, a group in parentheses, or an operand behind a sign. -/
def unaryOver (signed group : Rule Expr) : Rule Expr := do
  let t ← peek
  match t.kind with
  | .symbol .minus =>
    advance
    let operand ← signed
    return .negation operand t.location
  | .symbol .openParen =>
    advance
    let inner ← group
    let _ ← expect (.symbol .closeParen)
    return inner
  | .identifier =>
    advance
    return .named t.lexeme t.location
  | _ =>
    match literal? t with
    | some (some value) =>
      advance
      return .literal value t.location
    | some none => throw ⟨.invalidLiteral t.kind t.lexeme, t.location⟩
    | none => unexpected expressionStart

/-- An operand of binary operators, with the given depth left inside it. -/
def unary : Nat → Rule Expr
  | 0 => unaryOver tooDeep tooDeep
  | depth + 1 => unaryOver (unary depth) (operation (unary depth) loosest)

/-- An expression, which takes one level of the depth that is left. -/
def expression : Nat → Rule Expr
  | 0 => tooDeep
  | depth + 1 => operation (unary depth) loosest

end PasoFrontEnd.Grammar
