import PasoFrontEnd.Text.CharClass
import PasoFrontEnd.Text.Unprintable

/-!
Texts between quotes, with escapes for quotes, backslashes and all that has no picture of its own.
-/

namespace PasoFrontEnd.Text

def isUnprintable (c : Char) : Bool := inRanges unprintableRanges c.toNat

/-- A character inside quotes. -/
def escape (c : Char) : List Char :=
  match c with
  | '\x00' => ['\\', '0']
  | '\t' => ['\\', 't']
  | '\r' => ['\\', 'r']
  | '\n' => ['\\', 'n']
  | '"' | '\\' => ['\\', c]
  | _ =>
    if isUnprintable c then ['\\', 'u', '\x7b'] ++ Nat.toDigits 16 c.toNat ++ ['\x7d'] else [c]

/-- The text between quotes. -/
def quoted (s : String) : String :=
  "\"" ++ String.ofList (s.toList.flatMap escape) ++ "\""

end PasoFrontEnd.Text
