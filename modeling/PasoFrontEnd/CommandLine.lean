import PasoFrontEnd.Decimal.Text
import PasoFrontEnd.Log
import PasoFrontEnd.Scan.Event
import PasoFrontEnd.Text.Quoted

/-!
The command line: options, each given at most once, and one file. Arguments are read from the left
to the right; the first one that is wrong, or that asks for the version or for help, decides.
-/

namespace PasoFrontEnd.CommandLine

/-- Options that are given or not. -/
inductive Switch where
  | tokens
  | tree
  | dropComments
deriving DecidableEq, Repr

/-- Options with a value. -/
inductive Setting where
  | tabWidth
  | verbosity
deriving DecidableEq, Repr

def Switch.name : Switch → String
  | tokens => "tokens"
  | tree => "ast"
  | dropComments => "no-comments"

def Setting.name : Setting → String
  | tabWidth => "tab-width"
  | verbosity => "log-level"

def Switch.ofName? (name : String) : Option Switch :=
  [tokens, tree, dropComments].find? fun s => s.name = name

def Setting.ofName? (name : String) : Option Setting :=
  [tabWidth, verbosity].find? fun s => s.name = name

/-- What can be wrong with a command line. -/
inductive UsageError where
  | unknownOption (arg : String)
  | repeatedOption (name : String)
  | missingValue (name : String)
  | unneededValue (name : String)
  | invalidValue (name value : String)
  | extraFile (file : String)
  | emptyFile
  | missingFile
deriving DecidableEq, Repr

def UsageError.message : UsageError → String
  | unknownOption arg => "unknown option '" ++ arg ++ "'"
  | repeatedOption name => "option '--" ++ name ++ "' is given more than once"
  | missingValue name => "option '--" ++ name ++ "' needs a value"
  | unneededValue name => "option '--" ++ name ++ "' takes no value"
  | invalidValue name value => "option '--" ++ name ++ "' cannot be '" ++ value ++ "'"
  | extraFile file => "one file is enough, found '" ++ file ++ "' too"
  | emptyFile => "the name of the file is empty"
  | missingFile => "no file is given"

/-- What a run does. -/
structure Options where
  file : String
  tokens : Bool
  tree : Bool
  scan : ScanOptions
  verbosity : Log.Verbosity
deriving DecidableEq, Repr

namespace Options

/-- Whether the run prints what it finds; otherwise it starts the explorer. -/
def isBatch (o : Options) : Bool := o.tokens || o.tree

/-- The options as the log names them. -/
def describe (o : Options) : String :=
  "Args \x7b file: " ++ Text.quoted o.file ++ ", tokens: " ++ toString o.tokens ++
    ", ast: " ++ toString o.tree ++ ", tab_width: " ++ toString o.scan.tabWidth ++
    ", no_comments: " ++ toString (!o.scan.keepComments) ++
    ", log_level: " ++ o.verbosity.name ++ " \x7d"

end Options

/-- What a command line asks for. -/
inductive Request where
  | run (o : Options)
  | version
  | help
deriving DecidableEq, Repr

/-- An argument by its form alone. -/
inductive Argument where
  /-- Two hyphens: all arguments behind them are files. -/
  | separator
  /-- Two hyphens and a name, with the text behind an equals sign. -/
  | long (name : String) (value : Option String)
  /-- One hyphen and a letter. -/
  | short (letter : Char)
  | plain (text : String)
deriving DecidableEq, Repr

def Argument.ofString (s : String) : Argument :=
  match s.toList with
  | ['-', '-'] => separator
  | '-' :: '-' :: cs =>
    long (String.ofList (cs.takeWhile (· ≠ '=')))
      (match cs.dropWhile (· ≠ '=') with
        | [] => none
        | _ :: value => some (String.ofList value))
  | '-' :: c :: _ => short c
  | _ => plain s

/-- What the arguments so far have given. -/
structure Given where
  file : Option String := none
  tokens : Bool := false
  tree : Bool := false
  dropComments : Bool := false
  tabWidth : Option Nat := none
  verbosity : Option Log.Verbosity := none

namespace Given

def turnOn (g : Given) (s : Switch) : Except UsageError Given :=
  match s, g.tokens, g.tree, g.dropComments with
  | .tokens, false, _, _ => .ok { g with tokens := true }
  | .tree, _, false, _ => .ok { g with tree := true }
  | .dropComments, _, _, false => .ok { g with dropComments := true }
  | _, _, _, _ => .error (.repeatedOption s.name)

def set (g : Given) (s : Setting) (value : String) : Except UsageError Given :=
  match s with
  | .tabWidth =>
    match Decimal.readWord? value, g.tabWidth with
    | none, _ => .error (.invalidValue s.name value)
    | some _, some _ => .error (.repeatedOption s.name)
    | some n, none => .ok { g with tabWidth := some n }
  | .verbosity =>
    match Log.Verbosity.ofWord? value, g.verbosity with
    | none, _ => .error (.invalidValue s.name value)
    | some _, some _ => .error (.repeatedOption s.name)
    | some v, none => .ok { g with verbosity := some v }

def addFile (g : Given) (file : String) : Except UsageError Given :=
  if file = "" then .error .emptyFile
  else if g.file.isSome then .error (.extraFile file)
  else .ok { g with file := some file }

/-- The options that are given, with those that are not at their defaults. -/
def options (g : Given) : Except UsageError Options :=
  match g.file with
  | none => .error .missingFile
  | some file =>
    let scan : ScanOptions := {}
    .ok
      { file
        tokens := g.tokens
        tree := g.tree
        scan := ⟨g.tabWidth.getD scan.tabWidth, !g.dropComments⟩
        verbosity := g.verbosity.getD (.upTo .warn) }

end Given

/-- Reads the arguments behind a separator. -/
def readFiles (g : Given) : List String → Except UsageError Request
  | [] => g.options.map .run
  | file :: rest => do readFiles (← g.addFile file) rest

/-- Reads arguments, after others have given what they give. The value of an option stands behind an
equals sign or is the next argument, which must not look like an option then. -/
def readFrom (g : Given) : List String → Except UsageError Request
  | [] => g.options.map .run
  | arg :: rest =>
    match Argument.ofString arg with
    | .separator => readFiles g rest
    | .plain file => do readFrom (← g.addFile file) rest
    | .short 'V' => .ok .version
    | .short 'h' => .ok .help
    | .short _ => .error (.unknownOption arg)
    | .long "version" none => .ok .version
    | .long "help" none => .ok .help
    | .long name value =>
      match Switch.ofName? name, Setting.ofName? name with
      | some s, _ =>
        if value.isSome then .error (.unneededValue name)
        else do readFrom (← g.turnOn s) rest
      | none, some s =>
        match value with
        | some value => do readFrom (← g.set s value) rest
        | none =>
          match rest with
          | [] => .error (.missingValue name)
          | value :: rest =>
            match Argument.ofString value with
            | .plain value => do readFrom (← g.set s value) rest
            | _ => .error (.missingValue name)
      | none, none => .error (.unknownOption arg)

/-- Reads a command line. -/
def read (args : List String) : Except UsageError Request := readFrom {} args

end PasoFrontEnd.CommandLine
