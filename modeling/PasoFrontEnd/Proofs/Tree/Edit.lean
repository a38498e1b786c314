import PasoFrontEnd.LexError
import PasoFrontEnd.SyntaxError
import PasoFrontEnd.Tree.Basic

/-!
Edits: other places and other texts of string literals, put into tokens, trees and errors in place
of those that they hold.
-/

namespace PasoFrontEnd

/-- What stands in place of every location, and of every text of a string literal. -/
structure Edit where
  place : Location → Location := id
  text : String → String := id

namespace Edit

/-- Every place becomes the same. -/
def withoutPlaces : Edit where
  place _ := .start

variable (f : Edit)

def token (t : Token) : Token :=
  ⟨t.kind, if t.kind = .text then f.text t.lexeme else t.lexeme, f.place t.location⟩

def lexError (e : LexError) : LexError := ⟨e.fault, f.place e.location⟩

def literal : Literal → Literal
  | .text s => .text (f.text s)
  | value => value

def expr : Expr → Expr
  | .literal value loc => .literal (f.literal value) (f.place loc)
  | .named name loc => .named name (f.place loc)
  | .negation operand loc => .negation (expr operand) (f.place loc)
  | .operation op left right loc => .operation op (expr left) (expr right) (f.place loc)

mutual

def stmt : Stmt → Stmt
  | .assignment name value loc => .assignment name (f.expr value) (f.place loc)
  | .declaration type name init loc => .declaration type name (init.map f.expr) (f.place loc)
  | .print value loc => .print (f.expr value) (f.place loc)
  | .branch condition body (some otherwise) loc =>
    .branch (f.expr condition) (block body) (some (block otherwise)) (f.place loc)
  | .branch condition body none loc => .branch (f.expr condition) (block body) none (f.place loc)
  | .loop condition body loc => .loop (f.expr condition) (block body) (f.place loc)
  | .doLoop body condition loc => .doLoop (block body) (f.expr condition) (f.place loc)

def block : List Stmt → List Stmt
  | [] => []
  | s :: rest => stmt s :: block rest

end

def program (p : Program) : Program := ⟨f.block p.statements⟩

def syntaxError (e : SyntaxError) : SyntaxError :=
  ⟨match e.cause with
    | .unexpectedToken expected found => .unexpectedToken expected (f.token found)
    | cause => cause,
    f.place e.location⟩

/-- The end of a parse: a program, or an error. -/
def outcome : Except SyntaxError Program → Except SyntaxError Program
  | .ok p => .ok (f.program p)
  | .error e => .error (f.syntaxError e)

theorem block_eq_map (b : List Stmt) : f.block b = b.map f.stmt := by
  induction b with
  | nil => rfl
  | cons s b ih => rw [block, ih, List.map_cons]

/-! An edit that changes nothing. -/

theorem expr_id (e : Expr) : ({} : Edit).expr e = e := by
  induction e with
  | literal value _ => cases value <;> rfl
  | named _ _ => rfl
  | negation operand _ ih => rw [expr, ih]; rfl
  | operation op left right _ ihl ihr => rw [expr, ihl, ihr]; rfl

mutual

theorem stmt_id : (s : Stmt) → ({} : Edit).stmt s = s
  | .assignment _ value _ | .print value _ => by rw [stmt, expr_id]; rfl
  | .declaration _ _ none _ => by rw [stmt]; rfl
  | .declaration _ _ (some init) _ => by rw [stmt, Option.map_some, expr_id]; rfl
  | .branch condition body (some otherwise) _ => by
      rw [stmt, expr_id, block_id body, block_id otherwise]; rfl
  | .branch condition body none _ => by rw [stmt, expr_id, block_id body]; rfl
  | .loop condition body _ => by rw [stmt, expr_id, block_id body]; rfl
  | .doLoop body condition _ => by rw [stmt, expr_id, block_id body]; rfl

theorem block_id : (b : List Stmt) → ({} : Edit).block b = b
  | [] => by rw [block]
  | s :: rest => by rw [block, stmt_id s, block_id rest]

end

theorem program_id (p : Program) : ({} : Edit).program p = p := congrArg Program.mk (block_id _)

end Edit

end PasoFrontEnd
