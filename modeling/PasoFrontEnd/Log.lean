import PasoFrontEnd.Text.Padding

/-!
Log records. A record says how important it is and which part of the program it comes from; a
verbosity chooses the records that are written.
-/

namespace PasoFrontEnd.Log

/-- The importance of a record, most important first. -/
inductive Level where
  | error
  | warn
  | info
  | debug
  | trace
deriving DecidableEq, Repr

namespace Level

def rank : Level → Nat
  | error => 1
  | warn => 2
  | info => 3
  | debug => 4
  | trace => 5

def name : Level → String
  | error => "ERROR"
  | warn => "WARN"
  | info => "INFO"
  | debug => "DEBUG"
  | trace => "TRACE"

end Level

/-- The part of the program that a record comes from. -/
inductive Origin where
  | program
  | scanner
  | statements
  | parser
deriving DecidableEq, Repr

/-- The path under which a record names its origin. -/
def Origin.path : Origin → String
  | program => "paso"
  | scanner => "paso::parser::lexer"
  | statements => "paso::parser::statements"
  | parser => "paso::parser::parse"

structure Record where
  level : Level
  origin : Origin
  message : String
deriving DecidableEq, Repr

/-- The record as it is written. Further lines of its message are indented by four blanks. -/
def Record.text (r : Record) : String :=
  "[" ++ Text.padRight 5 r.level.name ++ " " ++ r.origin.path ++ "] " ++
    String.ofList (r.message.toList.flatMap fun c =>
      if c = '\n' then ['\n', ' ', ' ', ' ', ' '] else [c])

/-- How many records are written: none, or those of at least a given importance. -/
inductive Verbosity where
  | off
  | upTo (level : Level)
deriving DecidableEq, Repr

namespace Verbosity

def admits : Verbosity → Record → Bool
  | off, _ => false
  | upTo level, r => r.level.rank ≤ level.rank

/-- The verbosities with the words that choose them. -/
def words : List (String × Verbosity) :=
  [("off", off), ("error", upTo .error), ("warn", upTo .warn), ("info", upTo .info),
   ("debug", upTo .debug), ("trace", upTo .trace)]

/-- The verbosity that a word chooses, in capital or small letters. -/
def ofWord? (word : String) : Option Verbosity :=
  words.lookup (word.map Char.toLower)

/-- The word for a verbosity, with a capital letter. -/
def name : Verbosity → String
  | off => "Off"
  | upTo .error => "Error"
  | upTo .warn => "Warn"
  | upTo .info => "Info"
  | upTo .debug => "Debug"
  | upTo .trace => "Trace"

end Verbosity

end PasoFrontEnd.Log
