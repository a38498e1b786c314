import PasoFrontEnd.Explorer.SourcePane
import PasoFrontEnd.Grammar.Statement
import PasoFrontEnd.Scan.Basic
import PasoFrontEnd.Tree.Outline

/-!
The explorer: a program text with its tokens and its tree, one token of it selected. Keys move the
selection, the focus and the panes; nothing that a key does changes the text or its analysis.
-/

namespace PasoFrontEnd

namespace Explorer

inductive Pane where
  | source
  | diagnostics
  | tokens
  | tree
deriving DecidableEq, Repr

namespace Pane

def next : Pane → Pane
  | source => diagnostics
  | diagnostics => tokens
  | tokens => tree
  | tree => source

def previous : Pane → Pane
  | source => tree
  | diagnostics => source
  | tokens => diagnostics
  | tree => tokens

@[simp] theorem previous_next (p : Pane) : p.next.previous = p := by cases p <;> rfl

@[simp] theorem next_previous (p : Pane) : p.previous.next = p := by cases p <;> rfl

end Pane

inductive Key where
  | up
  | down
  | home
  | endKey
  | tab
  | backTab
  | escape
  | char (c : Char)
  | other
deriving DecidableEq, Repr

/-- The keys that a line of input stands for: one key if the line is its name, else its
characters. -/
def Key.ofLine (line : String) : List Key :=
  match [("up", up), ("down", down), ("home", home), ("end", endKey), ("tab", tab),
    ("backtab", backTab), ("esc", escape)].lookup line with
  | some key => [key]
  | none => line.toList.map char

/-- Where the panes stand. -/
structure Scroll where
  source : SourcePane.Scroll := {}
  diagnostics : Nat := 0
  tokens : Nat := 0
  tree : Nat := 0
deriving DecidableEq, Repr

end Explorer

open Explorer

/-- A program text, its analysis, and what is shown of them. -/
structure Explorer where
  source : String
  tokens : List Token
  errors : List LexError
  outcome : Except SyntaxError Program
  status : String
  focus : Pane := .tokens
  /-- The number of the selected token, counted from 0. -/
  selected : Nat := 0
  scroll : Scroll := {}
  quit : Bool := false

namespace Explorer

/-- What the status bar says about an analysis at first. -/
def summary (errors : List LexError) (outcome : Except SyntaxError Program) : String :=
  match outcome, errors.length with
  | .ok _, 0 => "Parsed successfully"
  | .ok _, n => "Parsed with " ++ toString n ++ " lexical error(s)"
  | .error _, n => "Syntax error (" ++ toString n ++ " lexical error(s))"

def ofString (source : String) (o : ScanOptions) : Explorer :=
  let scan := Scan.ofString source o
  let outcome := parse scan.tokens
  { source, tokens := scan.tokens, errors := scan.errors, outcome
    status := summary scan.errors outcome }

def syntaxError? (e : Explorer) : Option SyntaxError :=
  match e.outcome with
  | .ok _ => none
  | .error err => some err

/-- The outline of the program; without a program, no lines. -/
def outline (e : Explorer) : List String :=
  match e.outcome with
  | .ok p => p.outline
  | .error _ => []

def errorLocations (e : Explorer) : List Location :=
  (e.syntaxError?.map SyntaxError.location).toList ++ e.errors.map LexError.location

/-- The lines with errors, ascending and each once. -/
def errorLines (e : Explorer) : List Nat :=
  ((e.errorLocations.map Location.line).mergeSort (· ≤ ·)).eraseReps

def currentLine (e : Explorer) : Nat :=
  match e.tokens[e.selected]? with
  | some t => t.location.line
  | none => 1

/-- Selects the token with this number, or the last one if there are too few, and names it. -/
def select (e : Explorer) (index : Nat) : Explorer :=
  let index := min index (e.tokens.length - 1)
  { e with
    selected := index
    status := match e.tokens[index]? with
      | some t => t.describe ++ " at " ++ t.location.text
      | none => e.status }

/-- Selects the first token that is not before the first error. -/
def jumpToError (e : Explorer) : Explorer :=
  match Location.earliest? e.errorLocations with
  | none => { e with status := "No errors" }
  | some loc =>
    let index := (e.tokens.findIdx? fun t => loc ≤ t.location).getD (e.tokens.length - 1)
    { e.select index with focus := .tokens }

/-- One step up in the pane with the focus. In the source pane the current line goes down on the
screen. -/
def moveUp (e : Explorer) : Explorer :=
  match e.focus with
  | .source => { e with scroll.source.target := e.scroll.source.target.map Word.succ }
  | .tokens => e.select (e.selected - 1)
  | .tree => { e with scroll.tree := e.scroll.tree - 1 }
  | .diagnostics => { e with scroll.diagnostics := e.scroll.diagnostics - 1 }

def moveDown (e : Explorer) : Explorer :=
  match e.focus with
  | .source => { e with scroll.source.target := e.scroll.source.target.map (· - 1) }
  | .tokens => e.select (Word.succ e.selected)
  | .tree => { e with scroll.tree := Word.succ e.scroll.tree }
  | .diagnostics => { e with scroll.diagnostics := Word.succ e.scroll.diagnostics }

def press (e : Explorer) : Key → Explorer
  | .char 'q' | .char 'Q' | .escape => { e with quit := true }
  | .tab => { e with focus := e.focus.next }
  | .backTab => { e with focus := e.focus.previous }
  | .up => e.moveUp
  | .down => e.moveDown
  | .home => e.select 0
  | .endKey => e.select (e.tokens.length - 1)
  | .char 'e' => e.jumpToError
  | .char _ | .other => e

end Explorer

end PasoFrontEnd
