import NodeForge.Description
import NodeForge.Document.Copy
import NodeForge.Json.Reader
import NodeForge.Reference.Expansion
import NodeForge.Store.Folder
import NodeForge.Text.ShellWords

/-!
# The bundler

A description with references to other files can be put together by another program, the bundler. It
is called with the description and with the file that it has to write; that file is JSON.
-/

namespace NodeForge.Bundler

/-- The file that a bundler writes where no other one is given. -/
def defaultTarget : Path := ⟨"", ["_deref.json"]⟩

/-- How a call of the bundler ends. -/
inductive Outcome where
  /-- There is no such program. -/
  | missing
  /-- It fails, after writing a complaint. -/
  | failed (complaint : Text)
  /-- It succeeds, after writing the text of the target file. -/
  | wrote (text : Text)
deriving Repr, DecidableEq

/-- The words of a call: those of the command, and what the bundler has to do. -/
def call (command : Text) (source target : Path) : Except Fault (List Text) := do
  let words ← ShellWords.ofLine command
  let task : List Text := ["bundle", "--dereference", source.text, "--outfile", target.text]
  return words ++ task

/-- The document that a bundler leaves behind. -/
def result (call : List Text) (source : Path) : Outcome → Except Failure Value
  | .missing => failSpec (.bundlerNotFound (call.headD []))
  | .failed complaint => failSpec (.bundlerFailed source.text (Text.trim complaint))
  | .wrote text => do return (← Json.read (Description.fileText (text.string?.getD "")))

/-- What has been done to get a document. -/
structure Report where
  /-- The call of the bundler, if it has come to that. -/
  call : Option (List Text)
  folder : Folder
  result : Except Failure Value

/-- Calls the bundler, once there is a folder for its target. -/
def run (command : Text) (source target : Path) (outcome : Outcome) (folder : Folder) : Report :=
  match folder.ensureFolders target.parent with
  | .error f => ⟨none, folder, .error (.store f)⟩
  | .ok folder =>
    match call command source target with
    | .error f => ⟨none, folder, .error (.fault f)⟩
    | .ok words =>
      match outcome with
      | .wrote text =>
        match folder.write target text with
        | (folder, .error f) => ⟨some words, folder, .error (.store f)⟩
        | (folder, .ok ()) => ⟨some words, folder, result words source outcome⟩
      | outcome => ⟨some words, folder, result words source outcome⟩

/-- A description that is put together without a bundler: its references lead to places inside. -/
def withoutReferences (d : Description) : Except Failure Value :=
  let document := Value.map d.fields
  Reference.expandWith d.enter (if d.isKnotted then document.apart else document) d.nodeCount

/-- Reads the description itself, where there is no bundler. -/
def readSource (source : Path) (folder : Folder) : Except Failure Value := do
  let content ← (folder.read source).mapError Failure.store
  withoutReferences (← Description.read source.text content)

/-- The document of a description without references. A command that is empty asks for no
bundler. -/
def load (command : Text) (source target : Path) (outcome : Outcome) (folder : Folder) : Report :=
  if command.isEmpty then ⟨none, folder, readSource source folder⟩
  else run command source target outcome folder

end NodeForge.Bundler
