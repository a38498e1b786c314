import PasoFrontEnd.Location

/-!
What can be wrong with the text of a program before its grammar is looked at.
-/

namespace PasoFrontEnd

/-- The causes of lexical errors. -/
inductive LexError.Fault where
  /-- The input ends inside a string literal. -/
  | unterminatedString
  /-- The character begins no token. -/
  | invalidCharacter (c : Char)
  /-- An exclamation mark stands without an equals sign behind it. -/
  | malformedNegation
  /-- A line is less indented than the line before it, by a width that no open block has. -/
  | inconsistentDedent (width : Nat)
  /-- The input ends inside this many blocks. -/
  | unterminatedBlock (depth : Nat)
deriving DecidableEq, Repr

/-- A lexical error: its cause and the place it is reported at. -/
structure LexError where
  fault : LexError.Fault
  location : Location
deriving DecidableEq, Repr

namespace LexError

def Fault.describe : Fault → String
  | unterminatedString => "Unterminated string literal"
  | invalidCharacter c => "Invalid character: '" ++ c.toString ++ "'"
  | malformedNegation => "Malformed negation: '!' must be followed by '='"
  | inconsistentDedent width =>
    "Inconsistent dedent: no enclosing block is indented to width " ++ toString width
  | unterminatedBlock depth =>
    "Unterminated block: input ends inside " ++ toString depth ++ " indented block(s)"

def message (e : LexError) : String :=
  "Lexer error at " ++ e.location.text ++ ": " ++ e.fault.describe

end LexError

end PasoFrontEnd
