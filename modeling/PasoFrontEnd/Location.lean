import PasoFrontEnd.Text.Padding

/-!
Places in a source text: line and column, counted in characters.
-/

namespace PasoFrontEnd

/-- A place in a source text. The first character of a text is at line 1, column 1; line 0, column 0
stands for a place that no text has. -/
structure Location where
  line : Nat := 0
  column : Nat := 0
deriving DecidableEq, Repr, Inhabited

namespace Location

/-- Where a text begins. -/
def start : Location := ⟨1, 1⟩

/-- The place behind a character: a newline begins the next line. -/
def next (loc : Location) (c : Char) : Location :=
  if c = '\n' then ⟨loc.line + 1, 1⟩ else ⟨loc.line, loc.column + 1⟩

/-- The place behind several characters. -/
def advance (loc : Location) (cs : List Char) : Location :=
  cs.foldl next loc

/-- Locations are ordered by line, then by column. -/
instance : LE Location where
  le a b := a.line < b.line ∨ a.line = b.line ∧ a.column ≤ b.column

instance : LT Location where
  lt a b := a.line < b.line ∨ a.line = b.line ∧ a.column < b.column

instance (a b : Location) : Decidable (a ≤ b) :=
  inferInstanceAs (Decidable (a.line < b.line ∨ a.line = b.line ∧ a.column ≤ b.column))

instance (a b : Location) : Decidable (a < b) :=
  inferInstanceAs (Decidable (a.line < b.line ∨ a.line = b.line ∧ a.column < b.column))

/-- The earliest of several places. -/
def earliest? : List Location → Option Location
  | [] => none
  | loc :: rest =>
    match earliest? rest with
    | none => some loc
    | some other => if loc ≤ other then some loc else some other

def text (loc : Location) : String :=
  "line " ++ toString loc.line ++ ", column " ++ toString loc.column

instance : ToString Location := ⟨text⟩

/-- The place as it stands in a table, line and column next to the colon. -/
def aligned (loc : Location) : String :=
  Text.padLeft 4 (toString loc.line) ++ ":" ++ Text.padRight 3 (toString loc.column)

theorem advance_append (loc : Location) (as bs : List Char) :
    loc.advance (as ++ bs) = (loc.advance as).advance bs :=
  List.foldl_append

end Location

end PasoFrontEnd
