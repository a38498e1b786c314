import PasoFrontEnd.Location
import PasoFrontEnd.Token.Kind

/-!
Trees of PASO programs: expressions, statements in blocks, and whole programs. Every node carries
the place it is reported at: a statement its first token, an operation its operator.
-/

namespace PasoFrontEnd

/-- The values that a program can write down. -/
inductive Literal where
  | integer (n : Int64)
  | decimal (x : Float)
  | text (s : String)
  | boolean (b : Bool)
  | null
deriving DecidableEq

/-- The operators between two operands, loosest first. -/
inductive BinaryOp where
  | or
  | and
  | eq
  | ne
  | gt
  | lt
  | ge
  | le
  | add
  | sub
  | mul
  | div
deriving DecidableEq, Repr

namespace BinaryOp

/-- The operator that a token of this kind stands for between two operands. -/
def ofKind? : Token.Kind → Option BinaryOp
  | .keyword .o => some or
  | .keyword .y => some and
  | .symbol .equal => some eq
  | .symbol .unequal => some ne
  | .symbol .greater => some gt
  | .symbol .less => some lt
  | .symbol .atLeast => some ge
  | .symbol .atMost => some le
  | .symbol .plus => some add
  | .symbol .minus => some sub
  | .symbol .star => some mul
  | .symbol .slash => some div
  | _ => none

/-- The kind of the token that stands for the operator. -/
def kind : BinaryOp → Token.Kind
  | or => .keyword .o
  | and => .keyword .y
  | eq => .symbol .equal
  | ne => .symbol .unequal
  | gt => .symbol .greater
  | lt => .symbol .less
  | ge => .symbol .atLeast
  | le => .symbol .atMost
  | add => .symbol .plus
  | sub => .symbol .minus
  | mul => .symbol .star
  | div => .symbol .slash

theorem ofKind?_kind (op : BinaryOp) : ofKind? op.kind = some op := by
  cases op <;> rfl

theorem kind_eq_of_ofKind? {kind : Token.Kind} {op : BinaryOp} (h : ofKind? kind = some op) :
    kind = op.kind := by
  unfold ofKind? at h
  split at h <;> cases h <;> rfl

/-- How a tree that is written out shows the operator. -/
def spelling : BinaryOp → String
  | or => "O"
  | and => "Y"
  | eq => "=="
  | ne => "!="
  | gt => ">"
  | lt => "<"
  | ge => ">="
  | le => "<="
  | add => "+"
  | sub => "-"
  | mul => "*"
  | div => "/"

/-- How loosely the operator binds: its operands are made of operators with a smaller number. -/
def rank : BinaryOp → Nat
  | mul | div => 1
  | add | sub => 2
  | gt | lt | ge | le => 3
  | eq | ne => 4
  | and => 5
  | or => 6

end BinaryOp

inductive Expr where
  | literal (value : Literal) (loc : Location)
  | named (name : String) (loc : Location)
  | negation (operand : Expr) (loc : Location)
  | operation (op : BinaryOp) (left right : Expr) (loc : Location)
deriving DecidableEq

def Expr.location : Expr → Location
  | literal _ loc | named _ loc | negation _ loc | operation _ _ _ loc => loc

inductive Stmt where
  | assignment (name : String) (value : Expr) (loc : Location)
  | declaration (type : ValueType) (name : String) (init : Option Expr) (loc : Location)
  | print (value : Expr) (loc : Location)
  | branch (condition : Expr) (body : List Stmt) (otherwise : Option (List Stmt)) (loc : Location)
  | loop (condition : Expr) (body : List Stmt) (loc : Location)
  /-- A loop that asks for its condition behind the body. -/
  | doLoop (body : List Stmt) (condition : Expr) (loc : Location)

/-- Statements that stand one below the other. -/
abbrev Block := List Stmt

def Stmt.location : Stmt → Location
  | assignment _ _ loc | declaration _ _ _ loc | print _ loc | branch _ _ _ loc | loop _ _ loc
  | doLoop _ _ loc => loc

structure Program where
  statements : Block

end PasoFrontEnd
