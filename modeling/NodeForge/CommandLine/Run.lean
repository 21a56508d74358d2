import NodeForge.Bundler
import NodeForge.CommandLine.Invocation
import NodeForge.Node.Lookup
import NodeForge.OpenApi.Staging
import NodeForge.Outline.Staging
import NodeForge.Overview
import NodeForge.Package
import NodeForge.Source.Files

/-!
# Carrying a command line out

`run` says what a command line does: the lines that it prints, the files that it writes, and how it
ends. A run that fails keeps what it has printed and written until then.
-/

namespace NodeForge.CommandLine

/-- What has been done in a run. -/
structure Progress where
  /-- The printed lines. -/
  lines : List Text
  /-- The written files. -/
  written : List (Path × Text)
  /-- The folder of the run, with the written files in it. -/
  folder : Folder

/-- A run, which may fail. -/
abbrev Run := ExceptT Failure (StateM Progress)

/-- What is left of a text behind the code of a colour, from behind the bracket on. -/
def behindColour (text : Text) : Option Text :=
  let isCode (c : Char) : Bool := c == ';' || c == '?' || ('0' ≤ c && c ≤ '9')
  match text.dropWhile (Sign.meets isCode) with
  | .char c :: rest => if c.isAlpha then some rest else none
  | _ => none

/-- A line without the codes of colours, after the next `skip` signs have been passed over. -/
def withoutColours : (skip : Nat) → Text → Text
  | _, [] => []
  | skip + 1, _ :: rest => withoutColours skip rest
  | 0, c :: rest =>
    match c, rest with
    | .char '\x1b', .char '[' :: code =>
      match behindColour code with
      | some behind => withoutColours (rest.length - behind.length) rest
      | none => c :: withoutColours 0 rest
    | _, _ => c :: withoutColours 0 rest

/-- Prints a line, without colours. Half a pair cannot be printed. -/
def say (line : Text) : Run Unit := do
  if line.hasHalf then throw (.store .notEncodable)
  modify fun p => { p with lines := p.lines ++ [withoutColours 0 line] }

/-- Goes on with a result, or fails with it. -/
def need {α : Type} (r : Except Failure α) : Run α := ExceptT.mk (pure r)

/-- Changes the folder of the run, or fails since it cannot be changed so. -/
def change (f : Folder → InStore Folder) : Run Unit := do
  let folder ← need ((f (← get).folder).mapError Failure.store)
  modify fun p => { p with folder }

/-- Makes a folder and those that it lies in. -/
def makeFolders (p : Path) : Run Unit := change (Folder.ensureFolders p)

/-- Writes a file. -/
def write (file : Path × Text) : Run Unit := do
  let (folder, result) := (← get).folder.write file.1 file.2
  modify fun p => { p with folder }
  need (result.mapError Failure.store)
  modify fun p => { p with written := p.written ++ [file] }

/-- Goes on with a value, or fails with its fault. -/
def needValue {α : Type} (r : Except Fault α) : Run α := need (r.mapError Failure.fault)

/-! ### Staging -/

/-- The command that starts the bundler. -/
def bundlerCommand : Text := "npx @apidevtools/swagger-cli"

/-- The file that the bundler writes. -/
def bundlerTarget : Path := ⟨"", [".nodegen", "_deref.json"]⟩

/-- The document that the bundler makes of a description. -/
def bundled (spec : Path) (outcome : Bundler.Outcome) : Run Value := do
  let report := Bundler.run bundlerCommand spec bundlerTarget outcome (← get).folder
  modify fun p => { p with folder := report.folder }
  need report.result

/-- The model of the node for the description of an invocation. -/
def stage (i : Invocation) (outcome : Bundler.Outcome) : Run NodeModel := do
  let spec := Path.ofText i.spec
  let document := Description.read spec.text i.content
  let format ←
    match i.format with
    | some f => pure f
    | none => need (document.bind (Description.formatOf spec.text))
  match format with
  | .openApi => do
    let whole ←
      if i.bundles then bundled spec outcome
      else need (document.bind Bundler.withoutReferences)
    return (← need (OpenApi.stage (some spec.stem) defaultNodeColor whole.copied)).model
  | .custom => need (document.bind fun d => Outline.stage d.enter i.validates (.map d.fields))

/-! ### Output -/

/-- The file of the node model. -/
def modelFile : Path := ⟨"", ["nodegen-params.json"]⟩

/-- The file of the overview. -/
def overviewFile : Path := ⟨"", ["api-map.yaml"]⟩

/-- The file of the package manifest. -/
def manifestFile : Path := ⟨"", ["package.json"]⟩

/-- Writes the node model and its overview, and gives their paths. -/
def writeModel (output : Path) (m : NodeModel) : Run (List Path) := do
  makeFolders output
  write (output.join modelFile, (← needValue (Json.write m.dump)) ++ "\n")
  write (output.join overviewFile, Overview.text m)
  return [output.join modelFile, output.join overviewFile]

/-- Tells which files there are now. -/
def sayCreated (paths : List Path) : Run Unit := paths.forM fun p => say ("  Created " ++ p.text)

/-- Writes what staging makes of a description. -/
def writeStaged (output : Path) (m : NodeModel) : Run Unit := do
  say ("Found " ++ Numeral.ofNat m.resources.length ++ " resources, " ++
    Numeral.ofNat m.operationCount ++ " operations.")
  sayCreated (← writeModel output m)

/-- Writes what staging makes of a description, and the package with the source of the node. -/
def writeGenerated (output : Path) (m : NodeModel) : Run Unit := do
  say ("Found " ++ Numeral.ofNat m.resources.length ++ " resources.")
  let staged ← writeModel output m
  say "Generating code fragments..."
  let sources := (← needValue (Source.filesOf m)).map fun f => (output.join (.ofText f.1), f.2)
  sources.forM fun file => do
    makeFolders file.1.parent
    write file
  write (output.join manifestFile, ← needValue (Package.text m.service))
  let created := staged ++ sources.map Prod.fst ++ [output.join manifestFile]
  sayCreated created
  say ("Done! Generated " ++ Numeral.ofNat created.length ++ " files in " ++ output.text)

/-! ### Runs -/

/-- Carries an invocation out. -/
def carryOut (i : Invocation) (outcome : Bundler.Outcome) : Run Unit := do
  say ("Staging " ++ (Path.ofText i.spec).text ++ " (format: " ++ formatName i.format ++ ")...")
  let m ← stage i outcome
  match i.action with
  | .stage => writeStaged (.ofText i.output) m
  | .generate => writeGenerated (.ofText i.output) m

/-- What has been done in a run, and how it has ended. -/
structure Report extends Progress where
  result : Except Failure Unit

/-- What has been printed: each line and its line end, where a carriage return before the line feed
is part of the line end. -/
def Report.printed (r : Report) : Text :=
  Text.replace "\r\n" "\n" (r.lines.flatMap fun line => line ++ "\n")

/-- Carries a command line out. `find` tells what there is at a path, `folder` what is known of the
folder of the run, and `outcome` how a call of the bundler would end. There is no report where the
line is used wrongly. -/
def run (find : Lookup) (folder : Folder) (outcome : Bundler.Outcome) (arguments : List Text) :
    Option Report :=
  let start : Progress := ⟨[], [], folder⟩
  match Invocation.ofArguments find arguments with
  | .error .wrongUsage => none
  | .error (.store fault) => some ⟨start, .error (.store fault)⟩
  | .ok i =>
    let (result, progress) := (carryOut i outcome).run.run start
    some ⟨progress, result⟩

end NodeForge.CommandLine
