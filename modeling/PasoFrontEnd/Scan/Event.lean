import PasoFrontEnd.Layout
import PasoFrontEnd.Log
import PasoFrontEnd.Scan.Piece
import PasoFrontEnd.Token.Basic

/-!
What a scan meets in a text: its pieces, the changes of layout at the beginnings of lines, and the
end of the input. Tokens, errors, log records and the text itself are views of one event list.
-/

namespace PasoFrontEnd

structure ScanOptions where
  /-- The width that a tab adds to an indentation. -/
  tabWidth : Nat := 8
  /-- Whether comments become tokens. -/
  keepComments : Bool := true
deriving DecidableEq, Repr

/-- One thing that a scan meets, with its place. -/
inductive Event where
  | piece (p : Piece) (loc : Location)
  | layout (change : Layout.Change) (loc : Location)
  /-- The end of the input, inside as many blocks as the number says. -/
  | ended (depth : Nat) (loc : Location)
deriving DecidableEq, Repr

namespace Event

/-- The tokens that the event puts out. The end of the input closes the blocks that are open. -/
def tokens (keepComments : Bool) : Event → List Token
  | piece p loc =>
    match p.token? keepComments with
    | some (kind, lexeme) => [⟨kind, String.ofList lexeme, loc⟩]
    | none => []
  | layout (.opened _) loc => [⟨.indent, "", loc⟩]
  | layout (.closed _) loc => [⟨.dedent, "", loc⟩]
  | layout (.misaligned _) _ => []
  | ended depth loc => List.replicate depth ⟨.dedent, "", loc⟩ ++ [⟨.eof, "", loc⟩]

def errors : Event → List LexError
  | piece p loc =>
    match p.fault? with
    | some fault => [⟨fault, loc⟩]
    | none => []
  | layout (.misaligned width) loc => [⟨.inconsistentDedent width, loc⟩]
  | layout _ _ => []
  | ended depth loc => if depth = 0 then [] else [⟨.unterminatedBlock depth, loc⟩]

/-- The log records that the event leaves. Blocks that the end of the input closes leave none. -/
def records (event : Event) : List Log.Record :=
  match event with
  | layout (.opened width) loc =>
    [⟨.trace, .scanner, "INDENT to width " ++ toString width ++ " at " ++ loc.text⟩]
  | layout (.closed width) loc =>
    [⟨.trace, .scanner, "DEDENT from width " ++ toString width ++ " at " ++ loc.text⟩]
  | _ =>
    event.errors.map fun e =>
      ⟨.trace, .scanner, "lexical error at " ++ e.location.text ++ ": " ++ e.fault.describe⟩

end Event

end PasoFrontEnd
