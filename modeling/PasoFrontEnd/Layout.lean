import PasoFrontEnd.Word

/-!
Blocks by indentation. A layout remembers how far the open blocks are indented; entering a line of
some width opens at most one block or closes every block that is indented further.
-/

namespace PasoFrontEnd

/-- The widths of the open blocks, innermost first, and the width of the line entered last. The two
differ only after a line that is aligned with no open block. -/
structure Layout where
  levels : List Nat := []
  current : Nat := 0
deriving DecidableEq, Repr

namespace Layout

/-- What a line does to the open blocks. -/
inductive Change where
  /-- A block of this width begins. -/
  | opened (width : Nat)
  /-- The block of this width ends. -/
  | closed (width : Nat)
  /-- The line is less indented than the line before it and no block has its width. -/
  | misaligned (width : Nat)
deriving DecidableEq, Repr

/-- The width of the innermost open block, and 0 outside all blocks. -/
def top (l : Layout) : Nat := l.levels.headD 0

/-- The changes that a line of the given width makes, and the layout after them. -/
def enter (l : Layout) (width : Nat) : List Change × Layout :=
  if l.current < width then
    ([.opened width], ⟨width :: l.levels, width⟩)
  else if width < l.current then
    let after : Layout := ⟨l.levels.dropWhile (width < ·), width⟩
    ((l.levels.takeWhile (width < ·)).map .closed ++
      (if after.top = width then [] else [.misaligned width]), after)
  else
    ([], l)

/-- The width of an indentation: one for a space, the given width for a tab. -/
def width (tabWidth : Nat) (indentation : List Char) : Nat :=
  indentation.foldl (fun w c => Word.add w (if c = '\t' then tabWidth else 1)) 0

end Layout

end PasoFrontEnd
