import PasoFrontEnd.Grammar.Expression
import PasoFrontEnd.Log

/-!
Rules for statements, blocks and programs. A block stands behind a newline and between block
markers, and takes one level of the depth that is left; a statement that ends a block or the input
needs no newline of its own.
-/

namespace PasoFrontEnd

namespace Grammar

def statementStart : List Token.Kind :=
  [.keyword .si, .keyword .mientras, .keyword .haz, .keyword .muestra, .identifier,
   .keyword (.typeName .integer), .keyword (.typeName .decimal), .keyword (.typeName .text),
   .keyword (.typeName .boolean)]

/-- The end of a statement: a newline, or the end of a block or of the input, which stays. -/
def lineEnd : Rule Unit := do
  let t ← peek
  match t.kind with
  | .newline => advance
  | .dedent | .eof => return ()
  | _ => unexpected [.newline, .dedent, .eof]

def condition (expr : Rule Expr) : Rule Expr := do
  let _ ← expect (.symbol .openParen)
  let e ← expr
  let _ ← expect (.symbol .closeParen)
  return e

/-- A block, up to its first statement, and then its body. -/
def block (body : Rule Block) : Rule Block := do
  let _ ← expect .newline
  skipNewlines
  let _ ← expect .indent
  body

/-- Statements up to a token of a kind to stop at, with blank lines anywhere between them. -/
def statements (stop : Token.Kind → Bool) (stmt : Rule Stmt) : Rule Block := do
  skipNewlines
  manyUntil stop do
    let s ← stmt
    skipNewlines
    return s

/-- The body of a block, at least one statement, and the marker of its end. -/
def blockBody (stmt : Rule Stmt) : Rule Block := do
  let body ← statements (fun kind => kind = .dedent || kind = .eof) stmt
  if body.isEmpty then unexpected statementStart
  else
    let _ ← expect .dedent
    return body

/-- The other half of a branch, if there is one. -/
def otherwise? (body : Rule Block) : Rule (Option Block) := do
  let t ← peek
  match t.kind with
  | .keyword .siNo | .keyword .deLoContrario =>
    advance
    let other ← block body
    return some other
  | _ => return none

def initializer? (expr : Rule Expr) : Rule (Option Expr) := do
  let t ← peek
  if t.kind = .symbol .assign then
    advance
    let value ← expr
    return some value
  else return none

def noteBegun (t : Token) : Rule Unit := fun s => .ok () { s with begun := t :: s.begun }

/-- A statement, from rules for its expressions and for the bodies of its blocks. -/
def statementOver (expr : Rule Expr) (body : Rule Block) : Rule Stmt := do
  let t ← peek
  noteBegun t
  match t.kind with
  | .keyword .si =>
    advance
    let c ← condition expr
    let first ← block body
    let other ← otherwise? body
    return .branch c first other t.location
  | .keyword .mientras =>
    advance
    let c ← condition expr
    let repeated ← block body
    return .loop c repeated t.location
  | .keyword .haz =>
    advance
    let repeated ← block body
    let _ ← expect (.keyword .mientras)
    let c ← condition expr
    lineEnd
    return .doLoop repeated c t.location
  | .keyword .muestra =>
    advance
    let value ← expr
    lineEnd
    return .print value t.location
  | .identifier =>
    advance
    let _ ← expect (.symbol .assign)
    let value ← expr
    lineEnd
    return .assignment t.lexeme value t.location
  | .keyword (.typeName type) =>
    advance
    let name ← expect .identifier
    let init ← initializer? expr
    lineEnd
    return .declaration type name.lexeme init t.location
  | _ => unexpected statementStart

/-- A statement, with the given depth left for its blocks and expressions. -/
def statement : Nat → Rule Stmt
  | 0 => statementOver (expression 0) tooDeep
  | depth + 1 => statementOver (expression (depth + 1)) (blockBody (statement depth))

def program : Rule Program := do
  let body ← statements (fun kind => kind = .eof) (statement maxNesting)
  return ⟨body⟩

/-- The log of parsing from the start of a token list: where statements were begun, and how many
statements a program has. -/
def log : EStateM.Result SyntaxError State Program → List Log.Record
  | .ok p s => begunRecords s ++
    [⟨.debug, .parser, "parsed program with " ++ toString p.statements.length ++
      " top-level statement(s)"⟩]
  | .error _ s => begunRecords s
where
  begunRecords (s : State) : List Log.Record :=
    s.begun.reverse.map fun t =>
      ⟨.trace, .statements, "parsing statement at " ++ t.location.text ++ " starting with " ++
        t.describe⟩

end Grammar

/-- The program that tokens make up, or the first reason why they make up none. -/
def parse (tokens : List Token) : Except SyntaxError Program :=
  match Grammar.program (.ofTokens tokens) with
  | .ok p _ => .ok p
  | .error e _ => .error e

def parseLog (tokens : List Token) : List Log.Record :=
  Grammar.log (Grammar.program (.ofTokens tokens))

end PasoFrontEnd
