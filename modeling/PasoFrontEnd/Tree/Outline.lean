import PasoFrontEnd.Decimal.Text
import PasoFrontEnd.Tree.Basic

/-!
Trees as text. An expression is written on one line, with parentheses around every operation; a
program is an outline with one line for each statement and each block, indented by depth.
-/

namespace PasoFrontEnd

def Literal.render : Literal → String
  | integer n => toString n.toInt
  | decimal x => Decimal.floatText x
  | text s => "\"" ++ s ++ "\""
  | boolean true => Keyword.verdadero.spelling
  | boolean false => Keyword.falso.spelling
  | null => Keyword.nulo.spelling

def Expr.render : Expr → String
  | literal value _ => value.render
  | named name _ => name
  | negation operand _ => "(" ++ Symbol.minus.spelling ++ operand.render ++ ")"
  | operation op left right _ =>
      "(" ++ left.render ++ " " ++ op.spelling ++ " " ++ right.render ++ ")"

namespace Outline

/-- A line of an outline: two blanks for each level, and its text. -/
def line (depth : Nat) (text : String) : String :=
  String.ofList (List.replicate (2 * depth) ' ') ++ text

/-- The text for a statement itself, without its blocks. -/
def heading : Stmt → String
  | .assignment name value _ => "Assignment " ++ name ++ " = " ++ value.render
  | .declaration type name (some init) _ =>
    "VarDeclaration " ++ type.name ++ " " ++ name ++ " = " ++ init.render
  | .declaration type name none _ => "VarDeclaration " ++ type.name ++ " " ++ name
  | .print value _ => "Print " ++ value.render
  | .branch condition _ _ _ => "If " ++ condition.render
  | .loop condition _ _ => "While " ++ condition.render
  | .doLoop _ condition _ => "DoWhile " ++ condition.render

/-- The line for a statement itself: its heading and the number of its line in the source. -/
def headingLine (depth : Nat) (s : Stmt) : String :=
  line depth (heading s ++ " @" ++ toString s.location.line)

mutual

/-- The lines of a statement: its own and those of its blocks, one level deeper. -/
def ofStmt (depth : Nat) : Stmt → List String
  | s@(.branch _ body (some otherwise) _) =>
    headingLine depth s :: (line (depth + 1) "then" :: ofBlock (depth + 2) body) ++
      (line (depth + 1) "else" :: ofBlock (depth + 2) otherwise)
  | s@(.branch _ body none _) =>
    headingLine depth s :: line (depth + 1) "then" :: ofBlock (depth + 2) body
  | s@(.loop _ body _) => headingLine depth s :: line (depth + 1) "body" :: ofBlock (depth + 2) body
  | s@(.doLoop body _ _) =>
    headingLine depth s :: line (depth + 1) "body" :: ofBlock (depth + 2) body
  | s => [headingLine depth s]

def ofBlock (depth : Nat) : List Stmt → List String
  | [] => []
  | s :: rest => ofStmt depth s ++ ofBlock depth rest

end

end Outline

def Program.outline (p : Program) : List String :=
  ("Program (" ++ toString p.statements.length ++ " statements)") :: Outline.ofBlock 1 p.statements

end PasoFrontEnd
