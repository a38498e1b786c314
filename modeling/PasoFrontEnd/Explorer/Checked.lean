import PasoFrontEnd.Explorer.View

/-!
Drawing in a checked build: no sum and no difference has a value unless it is a word. Panes that
settle and screens that are painted are those of `Explorer.draw` wherever they have one.
-/

namespace PasoFrontEnd.Explorer

open Screen

def clampOffset? (total visible offset : Nat) : Option Nat :=
  if visible < total then (Word.sub? total visible).map (min offset) else some 0

def followSelected? (selected visible offset : Nat) : Option Nat :=
  if selected < offset then some selected
  else do
    let below ← Word.add? offset visible
    if below ≤ selected then
      let next ← Word.add? selected 1
      Word.sub? next visible
    else some offset

def DiagnosticsPane.settle? (p : DiagnosticsPane) (height offset : Nat) : Option Nat :=
  if p.messages.isEmpty then some offset
  else clampOffset? p.messages.length (visibleRows height) offset

def TreePane.settle? (p : TreePane) (height offset : Nat) : Option Nat :=
  if p.syntaxError.isSome then some offset
  else clampOffset? p.outline.length (visibleRows height) offset

def TokenPane.settle? (p : TokenPane) (height offset : Nat) : Option Nat :=
  if p.tokens.isEmpty then some offset
  else (followSelected? p.selected (visibleRows height) offset).bind
    (clampOffset? p.tokens.length (visibleRows height))

def SourcePane.settle? (p : SourcePane) (height : Nat) (s : SourcePane.Scroll) :
    Option SourcePane.Scroll :=
  let visible := visibleRows height
  let total := (Text.lines p.source).length
  let row := targetRow visible s.target
  if 0 < p.currentLine ∧ p.currentLine ≤ total then do
    let above ← Word.sub? p.currentLine 1
    let offset ← clampOffset? total visible (above - row)
    some ⟨offset, some row⟩
  else some ⟨s.offset, some row⟩

/-- The numbers in front of the lines that the pane shows. -/
def SourcePane.numbers? (p : SourcePane) (height offset : Nat) : Option (List Nat) :=
  (visibleRun (Text.lines p.source) offset (visibleRows height)).mapM fun (_, i) => Word.add? i 1

/-- The drawing, if every sum and every difference on the way to it is a word. -/
def draw? {Canvas : Type} (e : Explorer) (t : Toolkit Canvas) (width height : UInt16) :
    Option (Explorer × Canvas) := do
  let r := Regions.ofSize t width height
  let source ← e.sourcePane.settle? r.source.height.toNat e.scroll.source
  let _lineNumbers ← e.sourcePane.numbers? r.source.height.toNat source.offset
  let diagnostics ← e.diagnosticsPane.settle? r.diagnostics.height.toNat e.scroll.diagnostics
  let tokens ← e.tokenPane.settle? r.tokens.height.toNat e.scroll.tokens
  let tree ← e.treePane.settle? r.tree.height.toNat e.scroll.tree
  let _errorCount ← Word.add? e.errors.length e.syntaxError?.toList.length
  let _selectedNumber ← Word.add? e.selected 1
  let settled : Explorer := { e with scroll := ⟨source, diagnostics, tokens, tree⟩ }
  return (settled, settled.paint t width height)

end PasoFrontEnd.Explorer
