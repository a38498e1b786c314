import PasoFrontEnd.Explorer.Scrolling
import PasoFrontEnd.Explorer.Theme
import PasoFrontEnd.Token.Basic

/-!
The pane with the tokens, one on a row. It scrolls by as little as keeps the selected token in view.
-/

namespace PasoFrontEnd.Explorer

open Screen Theme

structure TokenPane where
  tokens : List Token
  selected : Nat := 0
  focused : Bool := false

namespace TokenPane

/-- A word of at most eight letters for a kind of token. -/
def tag : Token.Kind → String
  | .identifier => "IDENT"
  | .integer => "INT"
  | .decimal => "DEC"
  | .text => "STR"
  | .comment => "COMMENT"
  | .indent => "INDENT"
  | .dedent => "DEDENT"
  | .newline => "NEWLINE"
  | .eof => "EOF"
  | .keyword _ => "KEYWORD"
  | .symbol _ => "SYMBOL"

def tagStyle : Token.Kind → Style
  | .indent | .dedent | .newline | .eof => boldInk pink
  | .keyword (.typeName _) => ink teal
  | .keyword _ => ink blue
  | .integer | .decimal | .text => ink orange
  | .comment => ink grey
  | .identifier | .symbol _ => ink text

/-- The text of a token as it stands in the source; structure has none. -/
def spelling (t : Token) : String :=
  match t.kind with
  | .text => "\"" ++ t.lexeme ++ "\""
  | .comment => "~" ++ t.lexeme
  | .indent | .dedent | .newline | .eof => ""
  | _ => t.lexeme

/-- A row of the pane: place, kind and text of a token. -/
def row (t : Token) (isSelected : Bool) : Line :=
  let line : Line :=
    [⟨t.location.aligned ++ " ", ink grey⟩,
     ⟨Text.padRight 8 (tag t.kind) ++ " ", tagStyle t.kind⟩,
     ⟨spelling t, ink text⟩]
  if isSelected then line.patch { ground with bold := true } else line

/-- The offset of the pane when it is drawn with this height. Without tokens nothing scrolls. -/
def settle (p : TokenPane) (height offset : Nat) : Nat :=
  if p.tokens.isEmpty then offset
  else
    let visible := visibleRows height
    clampOffset p.tokens.length visible (followSelected p.selected visible offset)

def draw {Canvas : Type} (p : TokenPane) (t : Toolkit Canvas) (offset : Nat) (area : Rect) :
    Canvas → Canvas :=
  let f := frame (" Tokens (" ++ toString p.tokens.length ++ ") ") p.focused
  if p.tokens.isEmpty then
    t.render (.paragraph { lines := [[⟨"(no tokens)", {}⟩]], frame := some f, base := ink grey })
      area
  else
    t.render (.rows f ((visibleRun p.tokens offset (visibleRows area.height.toNat)).map
      fun (token, i) => ({}, row token (i = p.selected)))) area

end TokenPane

end PasoFrontEnd.Explorer
