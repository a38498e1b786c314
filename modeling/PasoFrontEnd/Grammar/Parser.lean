import PasoFrontEnd.Grammar.Statement

/-!
A parser that can be asked for a program again and again. It stands in front of the tokens that it
has not read, and an error leaves it where the error was met. Its rules count the levels of nesting
that are open in the state, so that a level that was not given back would be missing from the next
call.
-/

namespace PasoFrontEnd

namespace Grammar.Counted

/-- An operand of binary operators. The number is how often rules can stand inside each other; with
`maxNesting` or more the levels in the state run out first. -/
def unary : Nat → Rule Expr
  | 0 => unaryOver (nested tooDeep) (nested tooDeep)
  | calls + 1 => unaryOver (nested (unary calls)) (nested (operation (unary calls) loosest))

def expression : Nat → Rule Expr
  | 0 => nested tooDeep
  | calls + 1 => nested (operation (unary calls) loosest)

def statement : Nat → Rule Stmt
  | 0 => statementOver (expression 0) (nested tooDeep)
  | calls + 1 => statementOver (expression (calls + 1)) (nested (blockBody (statement calls)))

def program : Rule Program := do
  let body ← statements (fun kind => kind = .eof) (statement maxNesting)
  return ⟨body⟩

end Grammar.Counted

structure Parser where
  state : Grammar.State

namespace Parser

def ofTokens (tokens : List Token) : Parser := ⟨.ofTokens tokens⟩

/-- The place of the next token among those that are kept. -/
def position (p : Parser) : Nat := p.state.position

def depth (p : Parser) : Nat := p.state.depth

/-- One call for a program: the answer, and the parser as the call leaves it. -/
def program (p : Parser) : Except SyntaxError Program × Parser :=
  match Grammar.Counted.program p.state with
  | .ok program after => (.ok program, ⟨after⟩)
  | .error e after => (.error e, ⟨after⟩)

end Parser

end PasoFrontEnd
