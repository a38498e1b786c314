import PasoFrontEnd.CommandLine
import PasoFrontEnd.Grammar.Statement
import PasoFrontEnd.Scan.Basic
import PasoFrontEnd.Tree.Outline

/-!
What a run prints, and how it ends.
-/

namespace PasoFrontEnd.Batch

open CommandLine

/-- Why a file cannot be read. -/
inductive ReadError where
  | notFound
  | notDirectory
  | isDirectory
  | nameTooLong
  /-- The bytes of the file are no text in UTF-8. -/
  | notText
  | other (reason : String)
deriving DecidableEq, Repr

def ReadError.message : ReadError → String
  | notFound => "No such file or directory (os error 2)"
  | notDirectory => "Not a directory (os error 20)"
  | isDirectory => "Is a directory (os error 21)"
  | nameTooLong => "File name too long (os error 36)"
  | notText => "stream did not contain valid UTF-8"
  | other reason => reason

/-- The text of a file with these bytes. -/
def decode (bytes : ByteArray) : Except ReadError String :=
  match String.fromUTF8? bytes with
  | some text => .ok text
  | none => .error .notText

/-- What a run prints as output and, entry by entry, as errors; and the status that it ends with. -/
structure Report where
  status : UInt8 := 0
  output : String := ""
  errors : List String := []
deriving DecidableEq, Repr

/-- The program and its version. -/
def version : Report := { output := "paso 0.1.0\n" }

/-- The records that a verbosity admits, as they are written. -/
def written (v : Log.Verbosity) (records : List Log.Record) : List String :=
  (records.filter v.admits).map Log.Record.text

def unlines (lines : List String) : String := String.join (lines.map (· ++ "\n"))

/-- A line for a token: its place and its description. -/
def tokenLine (t : Token) : String := t.location.aligned ++ " " ++ t.describe

/-- The record at the end of an analysis. -/
def summary (file : String) (scan : Scan) (parsed : Bool) : Log.Record :=
  ⟨.info, .program, file ++ ": " ++ toString scan.tokens.length ++ " tokens, " ++
    toString scan.errors.length ++ " lexical error(s), parse " ++
      (if parsed then "ok" else "failed")⟩

/-- The report of a run over a text. The errors themselves are printed only if the explorer does not
show them. -/
def analyse (o : Options) (source : String) : Report :=
  let scan := Scan.ofString source o.scan
  let outcome := parse scan.tokens
  let syntaxErrors :=
    match outcome with
    | .ok _ => []
    | .error e => [e.message]
  let outline :=
    match outcome with
    | .ok p => p.outline
    | .error _ => []
  let messages := scan.errors.map LexError.message ++ syntaxErrors
  { status := if messages.isEmpty then 0 else 1
    output := unlines ((if o.tokens then scan.tokens.map tokenLine else []) ++
      (if o.tree then outline else []))
    errors :=
      written o.verbosity (scan.log ++ parseLog scan.tokens ++
        [summary o.file scan syntaxErrors.isEmpty]) ++
      (if o.isBatch then messages else []) }

/-- The report of a run over a file, whose text could be read or not. -/
def run (o : Options) (source : Except ReadError String) : Report :=
  let begun := written o.verbosity
    [⟨.debug, .program, "starting paso with args: " ++ o.describe⟩]
  let report : Report :=
    match source with
    | .ok text => analyse o text
    | .error e =>
      { status := 1, errors := ["Error: cannot read '" ++ o.file ++ "': " ++ e.message] }
  { report with errors := begun ++ report.errors }

end PasoFrontEnd.Batch
