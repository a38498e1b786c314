/-!
The types that a PASO program can declare a variable with.
-/

namespace PasoFrontEnd

inductive ValueType where
  | integer
  | decimal
  | text
  | boolean
deriving DecidableEq, Repr

namespace ValueType

/-- The word that names the type in a program. -/
def name : ValueType → String
  | integer => "entero"
  | decimal => "decimal"
  | text => "texto"
  | boolean => "booleano"

instance : ToString ValueType := ⟨name⟩

def all : List ValueType := [integer, decimal, text, boolean]

end ValueType

end PasoFrontEnd
