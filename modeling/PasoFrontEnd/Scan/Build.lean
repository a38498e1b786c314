import PasoFrontEnd.Scan.Basic

/-!
Scans by the build of the program. The spaces and tabs of every line are summed up as the line
begins, also of a line that takes no part in the layout. A checked build stops at a line whose sum
is no word, and then there is no scan; a wrapping one goes on with what is left of the sum, and its
scans are `Scan.ofString`.
-/

namespace PasoFrontEnd

namespace Layout

/-- The sum of an indentation. -/
def width? (b : Word.Build) (tabWidth : Nat) (indentation : List Char) : Option Nat :=
  indentation.foldlM (fun w c => b.add? w (if c = '\t' then tabWidth else 1)) 0

/-- The changes at the beginning of a line, and the layout after them. -/
def enterLine? (b : Word.Build) (l : Layout) (tabWidth : Nat) (line : List Piece) :
    Option (List Change × Layout) := do
  let measured ← width? b tabWidth (indentation line)
  match countedWidth? measured line with
  | none => return ([], l)
  | some width => return l.enter width

end Layout

namespace Scan

/-- The events of the pieces of a text from `loc` on. -/
def pieceEvents? (b : Word.Build) (o : ScanOptions) (l : Layout) (loc : Location) :
    List Piece → Option (List Event)
  | [] => some [.ended l.levels.length loc]
  | .newline :: rest => do
    let below := loc.next '\n'
    let (changes, after) ← l.enterLine? b o.tabWidth rest
    let more ← pieceEvents? b o after below rest
    return .piece .newline loc ::
      changes.map (Event.layout · (below.advance (Layout.indentation rest))) ++ more
  | p :: rest => (pieceEvents? b o l (loc.advance p.chars) rest).map (.piece p loc :: ·)

/-- The scan of a text that begins at `loc`, outside all blocks. -/
def ofChars? (b : Word.Build) (o : ScanOptions) (loc : Location) (cs : List Char) :
    Option Scan := do
  let pieces := Piece.split cs
  let (changes, after) ← Layout.enterLine? b {} o.tabWidth pieces
  let more ← pieceEvents? b o after loc pieces
  return {
    options := o
    events := changes.map (Event.layout · (loc.advance (Layout.indentation pieces))) ++ more }

def ofString? (b : Word.Build) (source : String) (o : ScanOptions) : Option Scan :=
  ofChars? b o .start source.toList

end Scan

/-- Scans what is left of the text, and stands behind it then. -/
def Scanner.scan? (b : Word.Build) (s : Scanner) : Option (Scan × Scanner) := do
  let scan ← Scan.ofChars? b s.options s.location s.rest
  return (scan, s.behind)

end PasoFrontEnd
