/-!
Lines of a text. A line ends at a newline, or at a carriage return and a newline; a text that ends
with a newline has no empty last line.
-/

namespace PasoFrontEnd.Text

/-- A line that a newline ends, without a carriage return before the newline. -/
def dropReturn (line : List Char) : List Char :=
  if line.getLast? = some '\r' then line.dropLast else line

/-- The lines of a text, of which the given characters have been read from the first one. -/
def linesFrom (line : List Char) : List Char → List (List Char)
  | [] => if line.isEmpty then [] else [line.reverse]
  | c :: cs => if c = '\n' then dropReturn line.reverse ::
      linesFrom [] cs else linesFrom (c :: line) cs

def lines (s : String) : List String := (linesFrom [] s.toList).map String.ofList

end PasoFrontEnd.Text
