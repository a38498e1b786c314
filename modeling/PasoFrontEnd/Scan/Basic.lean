import PasoFrontEnd.Scan.Event

/-!
Scanning. A scan cuts a text into pieces and measures each line as it begins: the first line of the
text, and every line behind a newline that is a piece of its own. Blank lines, and lines with
nothing but a comment that further lines follow, take no part in the layout. Whatever is wrong with
the text, a scan goes through to its end.
-/

namespace PasoFrontEnd

namespace Layout

def indentation (line : List Piece) : List Char :=
  (line.takeWhile Piece.isGap).flatMap Piece.chars

/-- The width that a line counts with, from the width of its indentation and the pieces of the text
that begin with it; `none` for a line that takes no part in the layout. The end of the input counts
as a line of width 0. -/
def countedWidth? (measured : Nat) (line : List Piece) : Option Nat :=
  match line.dropWhile Piece.isGap with
  | [] => some 0
  | .newline :: _ => none
  | .blank '\r' :: .newline :: _ => none
  | .comment _ :: rest => if rest = [] then some 0 else none
  | _ => some measured

def lineWidth? (tabWidth : Nat) (line : List Piece) : Option Nat :=
  countedWidth? (width tabWidth (indentation line)) line

/-- The changes at the beginning of a line, and the layout after them. -/
def enterLine (l : Layout) (tabWidth : Nat) (line : List Piece) : List Change × Layout :=
  match lineWidth? tabWidth line with
  | none => ([], l)
  | some width => l.enter width

end Layout

/-- The events of a scan, with the choices that it was made with. -/
structure Scan where
  options : ScanOptions
  events : List Event

namespace Scan

/-- The events at the beginning of a line that begins at `loc`. The changes of layout have their
place behind the indentation. -/
def lineEvents (o : ScanOptions) (l : Layout) (loc : Location) (line : List Piece) : List Event :=
  (l.enterLine o.tabWidth line).1.map
    (Event.layout · (loc.advance (Layout.indentation line)))

/-- The events of the pieces of a text from `loc` on. -/
def pieceEvents (o : ScanOptions) (l : Layout) (loc : Location) : List Piece → List Event
  | [] => [.ended l.levels.length loc]
  | .newline :: rest =>
    let below := loc.next '\n'
    .piece .newline loc :: lineEvents o l below rest ++
      pieceEvents o (l.enterLine o.tabWidth rest).2 below rest
  | p :: rest => .piece p loc :: pieceEvents o l (loc.advance p.chars) rest

/-- The scan of a text that begins at `loc`, outside all blocks. -/
def ofChars (o : ScanOptions) (loc : Location) (cs : List Char) : Scan :=
  let pieces := Piece.split cs
  let start : Layout := {}
  { options := o
    events := lineEvents o start loc pieces ++
      pieceEvents o (start.enterLine o.tabWidth pieces).2 loc pieces }

def ofString (source : String) (o : ScanOptions) : Scan :=
  ofChars o .start source.toList

def tokens (s : Scan) : List Token := s.events.flatMap (Event.tokens s.options.keepComments)

def errors (s : Scan) : List LexError := s.events.flatMap Event.errors

/-- The log of a scan: what its events leave, and a count at the end. -/
def log (s : Scan) : List Log.Record :=
  s.events.flatMap Event.records ++
    [⟨.debug, .scanner, "scanned " ++ toString s.tokens.length ++ " tokens with " ++
      toString s.errors.length ++ " lexical error(s)"⟩]

end Scan

/-- A scanner on its way through a text. It stands at `location`, in front of `rest`. -/
structure Scanner where
  options : ScanOptions
  location : Location
  rest : List Char

namespace Scanner

def ofString (source : String) (o : ScanOptions) : Scanner := ⟨o, .start, source.toList⟩

/-- Behind the pieces that are read one after another, until nothing is left to read. -/
def behind (s : Scanner) : Scanner :=
  match _left : s.rest with
  | [] => s
  | c :: cs =>
    let read := Piece.read c cs
    behind { s with location := s.location.advance read.1.chars, rest := read.2 }
termination_by s.rest.length
decreasing_by
  rw [_left]
  exact Nat.lt_succ_of_le (Piece.length_read_le c cs)

/-- Scans what is left of the text. -/
def scan (s : Scanner) : Scan × Scanner :=
  (Scan.ofChars s.options s.location s.rest, s.behind)

/-- A scanner that has scanned stands at the end of its text. -/
theorem behind_eq (s : Scanner) :
    s.behind = { s with location := s.location.advance s.rest, rest := [] } := by
  fun_induction behind s with
  | case1 s ended =>
    obtain ⟨_, _, rest⟩ := s
    cases ended
    rfl
  | case2 s c cs left read ih =>
    obtain ⟨text, chars, whole⟩ := Piece.splits_read c cs
    rw [ih, left, ← whole, ← List.cons_append, ← chars, Location.advance_append]

end Scanner

end PasoFrontEnd
