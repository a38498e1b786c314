/-!
Columns of text: a text filled up with blanks to a least width. Width counts characters.
-/

namespace PasoFrontEnd.Text

/-- The text at the right of a column of the given width. -/
def padLeft (width : Nat) (s : String) : String :=
  String.ofList (List.replicate (width - s.length) ' ') ++ s

/-- The text at the left of a column of the given width. -/
def padRight (width : Nat) (s : String) : String :=
  s ++ String.ofList (List.replicate (width - s.length) ' ')

end PasoFrontEnd.Text
