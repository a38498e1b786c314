import PasoFrontEnd.ValueType

/-!
Kinds of tokens. Keywords and symbols are written in one way each, so a kind that holds one of them
determines the text of its token; identifiers, literals and comments carry their text in the token.
-/

namespace PasoFrontEnd

/-- The words with a meaning of their own. Two of them are written with more than one word. -/
inductive Keyword where
  | y
  | o
  | verdadero
  | falso
  | nulo
  | si
  | siNo
  | deLoContrario
  | haz
  | mientras
  | durante
  | muestra
  | devuelve
  | typeName (type : ValueType)
deriving DecidableEq, Repr

namespace Keyword

/-- How the keyword is written, with single spaces between its words. -/
def spelling : Keyword → String
  | y => "Y"
  | o => "O"
  | verdadero => "verdadero"
  | falso => "falso"
  | nulo => "nulo"
  | si => "si"
  | siNo => "si no"
  | deLoContrario => "de lo contrario"
  | haz => "haz"
  | mientras => "mientras"
  | durante => "durante"
  | muestra => "muestra"
  | devuelve => "devuelve"
  | typeName type => type.name

def all : List Keyword :=
  [y, o, verdadero, falso, nulo, si, siNo, deLoContrario, haz, mientras, durante, muestra,
   devuelve] ++ ValueType.all.map typeName

def ofSpelling? (word : String) : Option Keyword :=
  all.find? fun k => k.spelling = word

end Keyword

inductive Symbol where
  | plus
  | minus
  | star
  | slash
  | greater
  | less
  | atLeast
  | atMost
  | equal
  | unequal
  | comma
  | dot
  | openParen
  | closeParen
  | assign
deriving DecidableEq, Repr

namespace Symbol

def spelling : Symbol → String
  | plus => "+"
  | minus => "-"
  | star => "*"
  | slash => "/"
  | greater => ">"
  | less => "<"
  | atLeast => ">="
  | atMost => "<="
  | equal => "=="
  | unequal => "!="
  | comma => ","
  | dot => "."
  | openParen => "("
  | closeParen => ")"
  | assign => "="

end Symbol

namespace Token

/-- What a token is. The last four mark structure and have no text of their own in a line. -/
inductive Kind where
  | identifier
  | integer
  | decimal
  | text
  | comment
  | keyword (k : Keyword)
  | symbol (s : Symbol)
  | indent
  | dedent
  | newline
  | eof
deriving DecidableEq, Repr

namespace Kind

def isKeyword : Kind → Bool
  | keyword _ => true
  | _ => false

/-- Whether a token of this kind begins a variable declaration. -/
def isTypeName : Kind → Bool
  | keyword (.typeName _) => true
  | _ => false

def isStructural : Kind → Bool
  | indent | dedent | newline | eof => true
  | _ => false

/-- The kind as error messages name it. -/
def describe : Kind → String
  | identifier => "identifier"
  | integer => "integer literal"
  | decimal => "decimal literal"
  | text => "string literal"
  | comment => "comment"
  | keyword k => "'" ++ k.spelling ++ "'"
  | symbol s => "'" ++ s.spelling ++ "'"
  | indent => "INDENT"
  | dedent => "DEDENT"
  | newline => "newline"
  | eof => "end of file"

end Kind

end Token

end PasoFrontEnd
