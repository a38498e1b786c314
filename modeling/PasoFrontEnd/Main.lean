import PasoFrontEnd.Batch
import PasoFrontEnd.Explorer.View
import PasoFrontEnd.Screen.Panel
import PasoFrontEnd.Text.Lines

/-!
The program: reads the file that the command line names, prints the report of the run and, if the
run is no batch run, shows the explorer after each line of input.
-/

namespace PasoFrontEnd

open Batch CommandLine

/-- The reason of a failure to read a file; its number may come with either sign. -/
def readError (e : IO.Error) : ReadError :=
  match e with
  | .noFileOrDirectory .. => .notFound
  | .inappropriateType _ code _ =>
    if code = 21 ∨ code = -21 then .isDirectory else .notDirectory
  | .invalidArgument _ code _ =>
    if code = 36 ∨ code = -36 then .nameTooLong else .other (toString e)
  | _ => .other (toString e)

def readFile (file : String) : IO (Except ReadError String) := do
  match ← (IO.FS.readBinFile file).toBaseIO with
  | .ok bytes => return decode bytes
  | .error e => return .error (readError e)

/-- Prints a report; the result is the status of the run. -/
def print (r : Report) : IO UInt32 := do
  let out ← IO.getStdout
  out.putStr r.output
  out.flush
  for entry in r.errors do
    IO.eprintln entry
  return r.status.toUInt32

/-- Shows the explorer on a screen of 80 columns and 24 rows until it is quit or the input ends. -/
partial def explore (e : Explorer) (input : IO.FS.Stream) : IO Unit := do
  let (e, grid) := e.draw Screen.Grid.toolkit 80 24
  for row in grid.rows do
    IO.println (String.ofList (row.map (·.char)))
  if e.quit then return
  let line ← input.getLine
  if line.isEmpty then return
  let keys := (Text.lines line).flatMap Explorer.Key.ofLine
  explore (keys.foldl Explorer.press e) input

def usage : String := "usage: paso [--tokens] [--ast] [--tab-width N] [--no-comments] " ++
  "[--log-level LEVEL] FILE"

end PasoFrontEnd

open PasoFrontEnd in
def main (args : List String) : IO UInt32 := do
  match CommandLine.read args with
  | .error e =>
    IO.eprintln ("error: " ++ e.message)
    IO.eprintln usage
    return 2
  | .ok .help =>
    IO.println usage
    return 0
  | .ok .version => print Batch.version
  | .ok (.run o) =>
    let source ← readFile o.file
    let status ← print (Batch.run o source)
    match source with
    | .ok text =>
      if !o.isBatch then explore (Explorer.ofString text o.scan) (← IO.getStdin)
    | .error _ => pure ()
    return status
