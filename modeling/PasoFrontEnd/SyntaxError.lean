import PasoFrontEnd.Token.Basic

/-!
Why a list of tokens is no program. Parsing stops at the first reason.
-/

namespace PasoFrontEnd

inductive SyntaxError.Cause where
  /-- A token stands where only tokens of other kinds can. -/
  | unexpectedToken (expected : List Token.Kind) (found : Token)
  /-- The lexeme of a literal writes no value of its kind. -/
  | invalidLiteral (kind : Token.Kind) (lexeme : String)
  /-- Blocks, groups and signs stand inside each other beyond this limit. -/
  | nestingTooDeep (limit : Nat)
deriving DecidableEq, Repr

structure SyntaxError where
  cause : SyntaxError.Cause
  location : Location
deriving DecidableEq, Repr

namespace SyntaxError

/-- Kinds of tokens as a choice in words. -/
def alternatives : List Token.Kind → String
  | [] => "nothing"
  | [k] => k.describe
  | [k, l] => k.describe ++ " or " ++ l.describe
  | k :: rest => k.describe ++ ", " ++ alternatives rest

def Cause.describe : Cause → String
  | unexpectedToken expected found =>
    "Expected " ++ alternatives expected ++ ", found " ++ found.describe
  | invalidLiteral kind lexeme => "Invalid " ++ kind.describe ++ " '" ++ lexeme ++ "'"
  | nestingTooDeep limit => "Nesting deeper than " ++ toString limit ++ " levels"

def message (e : SyntaxError) : String :=
  "Parse error at " ++ e.location.text ++ ": " ++ e.cause.describe

/-- The kinds of tokens that could have stood at the place of the error. -/
def expected (e : SyntaxError) : List Token.Kind :=
  match e.cause with
  | .unexpectedToken expected _ => expected
  | .invalidLiteral _ _ | .nestingTooDeep _ => []

/-- The token that could not stand at the place of the error. -/
def found? (e : SyntaxError) : Option Token :=
  match e.cause with
  | .unexpectedToken _ found => some found
  | .invalidLiteral _ _ | .nestingTooDeep _ => none

end SyntaxError

end PasoFrontEnd
