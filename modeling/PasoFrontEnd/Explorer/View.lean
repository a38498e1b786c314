import PasoFrontEnd.Explorer.Basic
import PasoFrontEnd.Explorer.DiagnosticsPane
import PasoFrontEnd.Explorer.StatusBar
import PasoFrontEnd.Explorer.TokenPane
import PasoFrontEnd.Explorer.TreePane

/-!
What the explorer looks like, with any toolkit. Drawing has two steps: the panes settle on the
offsets that fit the size of the screen, and then the screen is painted, which changes nothing more.
-/

namespace PasoFrontEnd.Explorer

open Screen

variable {Canvas : Type}

/-- The parts of the screen. -/
structure Regions where
  source : Rect
  diagnostics : Rect
  tokens : Rect
  tree : Rect
  status : Rect
deriving DecidableEq, Repr

/-- Source text and errors on the left, tokens and tree on the right, and the status bar in the last
row. -/
def Regions.ofSize (t : Toolkit Canvas) (width height : UInt16) : Regions :=
  let (panes, status) := t.split .vertical (.min 0) (.length 1) ⟨0, 0, width, height⟩
  let (left, right) := t.split .horizontal (.percentage 55) (.percentage 45) panes
  let (source, diagnostics) := t.split .vertical (.percentage 70) (.percentage 30) left
  let (tokens, tree) := t.split .vertical (.percentage 50) (.percentage 50) right
  { source, diagnostics, tokens, tree, status }

def sourcePane (e : Explorer) : SourcePane :=
  ⟨e.source, e.currentLine, e.errorLines, e.focus = .source⟩

def diagnosticsPane (e : Explorer) : DiagnosticsPane :=
  ⟨e.errors, e.syntaxError?, e.focus = .diagnostics⟩

def tokenPane (e : Explorer) : TokenPane := ⟨e.tokens, e.selected, e.focus = .tokens⟩

def treePane (e : Explorer) : TreePane := ⟨e.outline, e.syntaxError?, e.focus = .tree⟩

def statusBar (e : Explorer) : StatusBar :=
  ⟨e.status, e.selected, e.tokens.length, e.errorLocations.length⟩

/-- The explorer with its panes where they stand on a screen of this size. -/
def settle (e : Explorer) (t : Toolkit Canvas) (width height : UInt16) : Explorer :=
  let r := Regions.ofSize t width height
  { e with
    scroll :=
      { source := e.sourcePane.settle r.source.height.toNat e.scroll.source
        diagnostics := e.diagnosticsPane.settle r.diagnostics.height.toNat e.scroll.diagnostics
        tokens := e.tokenPane.settle r.tokens.height.toNat e.scroll.tokens
        tree := e.treePane.settle r.tree.height.toNat e.scroll.tree } }

def paint (e : Explorer) (t : Toolkit Canvas) (width height : UInt16) : Canvas :=
  let r := Regions.ofSize t width height
  let c := e.sourcePane.draw t e.scroll.source.offset r.source (t.blank width height)
  let c := e.diagnosticsPane.draw t e.scroll.diagnostics r.diagnostics c
  let c := e.tokenPane.draw t e.scroll.tokens r.tokens c
  let c := e.treePane.draw t e.scroll.tree r.tree c
  e.statusBar.draw t r.status c

def draw (e : Explorer) (t : Toolkit Canvas) (width height : UInt16) : Explorer × Canvas :=
  let e := e.settle t width height
  (e, e.paint t width height)

end PasoFrontEnd.Explorer
