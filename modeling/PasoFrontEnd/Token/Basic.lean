import PasoFrontEnd.Location
import PasoFrontEnd.Token.Kind

/-!
Tokens: a kind, the text that belongs to it, and the place where it begins.
-/

namespace PasoFrontEnd

/-- A token. The lexeme of a string literal is the text between its quotes, that of a comment the
text behind its `~`; block markers and the end of the input have the empty lexeme. -/
structure Token where
  kind : Token.Kind
  lexeme : String
  location : Location
deriving DecidableEq, Repr

namespace Token

/-- The token as messages name it: the kind, with the lexeme where the kind leaves it open. -/
def describe (t : Token) : String :=
  match t.kind with
  | .identifier => t.kind.describe ++ " '" ++ t.lexeme ++ "'"
  | .integer | .decimal => t.kind.describe ++ " " ++ t.lexeme
  | .text => t.kind.describe ++ " \"" ++ t.lexeme ++ "\""
  | .comment => t.kind.describe ++ " '" ++ t.lexeme ++ "'"
  | kind => kind.describe

end Token

end PasoFrontEnd
