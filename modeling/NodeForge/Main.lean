import NodeForge.CommandLine.Run

/-!
# The program

Looks up what the command line names, lets `CommandLine.run` decide, and writes and prints what it
says. No other program is started from here, so asking for the bundler ends as if there were none.
-/

namespace NodeForge

/-- How the program is called. -/
def usage : String :=
  "Usage: nodeforge [-v] (stage | generate) SPEC -o FOLDER\n" ++
    "         [--format (auto | openapi | custom)] [--bundle] [--validate]"

/-- What is told about a failure. -/
def Failure.message : Failure → Text
  | .spec cause => cause.message
  | .missingOperation resource operation => Failure.missingMessage resource operation
  | .refused problems =>
    "values that do not fit: " ++ Text.joined ", " (problems.map fun p => Text.joined "." p.path)
  | .fault _ => "a value in the description cannot be used where it stands"
  | .store _ => "a file cannot be written where it belongs"

/-- A text as it is printed. -/
def Text.display (text : Text) : String := String.ofList text.shown

/-- Looks up what there is at a path; a folder counts as absent, since it cannot be read. -/
def lookUp (path : Text) : IO Entry := do
  try
    let bytes ← IO.FS.readBinFile path.display
    return .file ((String.fromUTF8? bytes).getD "")
  catch _ => return .absent

/-- Writes a file and the folders that it lies in. -/
def writeOut (file : Path × Text) : IO Unit := do
  IO.FS.createDirAll file.1.parent.text.display
  IO.FS.writeFile file.1.text.display file.2.display

/-- The values of a command line, any of which may be a path. -/
def valuesIn (arguments : List Text) : List Text :=
  match CommandLine.readArguments arguments with
  | some (_, options) => options.plain ++ Entries.values options.settings
  | none => []

end NodeForge

open NodeForge

/-- Carries the command line out; the result is 0, 1 after a failure, and 2 for wrong usage. -/
def main (arguments : List String) : IO UInt32 := do
  let arguments := arguments.map Text.ofString
  let places ← (valuesIn arguments).mapM fun path => do return (path, ← lookUp path)
  let find (path : Text) : InStore Entry := .ok ((places.lookup path).getD .absent)
  match CommandLine.run find (Folder.ofFiles []) .missing arguments with
  | none =>
    IO.eprintln usage
    return 2
  | some report =>
    report.written.forM writeOut
    IO.print report.printed.display
    match report.result with
    | .ok () => return 0
    | .error e =>
      IO.eprintln ("Error: " ++ e.message.display)
      return 1
