import NodeForge.Document.Entries
import NodeForge.Store.Fault
import NodeForge.Store.Path

/-!
# Files and folders

What a run can see of the files around it, and what it makes: the files under the folder that it
runs in, with what they hold, and the folders that they lie in. Nothing is known of what is outside
of that folder; there any file and any folder can be made, and none of them is kept.

A file holds characters. A text with half a pair in it cannot be written: the file is there, and it
is empty.
-/

namespace NodeForge

/-- A file under a folder: the names on the way to it, and what it holds. -/
abbrev StoredFile := List Text × String

/-- A folder with all that is under it. -/
structure Folder where
  files : List StoredFile
  /-- The folders that have been made, besides those that files lie in. -/
  folders : List (List Text)

/-- What there is at a path. -/
inductive Entry where
  | absent
  | folder
  | file (content : String)
deriving Repr, DecidableEq

/-- Where a path leads. -/
inductive Place where
  | inside (names : List Text)
  /-- Out of the folder: to a folder around it, or to something that is not known. -/
  | outside (isFolder : Bool)
deriving Repr, DecidableEq

/-- A result that hangs on the files and folders there are. -/
abbrev InStore := Except StoreFault

namespace Folder

/-- A folder that holds files only. -/
def ofFiles (files : List StoredFile) : Folder := ⟨files, []⟩

/-- Whether something lies below the place of the first names. -/
def isBelow (names inner : List Text) : Bool :=
  names.isPrefixOf inner && names.length < inner.length

/-- Whether the names lead to a folder. -/
def hasFolder (names : List Text) (d : Folder) : Bool :=
  names.isEmpty || d.folders.contains names || d.files.any (fun f => isBelow names f.1) ||
    d.folders.any (isBelow names)

/-- What there is where the names lead. -/
def entry (names : List Text) (d : Folder) : Entry :=
  if d.hasFolder names then .folder
  else
    match d.files.lookup names with
    | some content => .file content
    | none => .absent

/-! ### Ways -/

/-- The longest name of a file or folder, in bytes. -/
def longestName : Nat := 255

/-- The longest way to a file or folder, in bytes. -/
def longestWay : Nat := 4095

/-- Whether a name on a way is no step. -/
def isNoStep (name : Text) : Bool := name.isEmpty || name == "."

/-- Where a way leads that goes on outside: to a folder if it ends with a step back. -/
def outsideOf (names : List Text) : Place :=
  .outside (((names.filter fun n => !isNoStep n).getLast?).all (· == Text.ofString ".."))

/-- The place where a way leads that has come to `place`. Every step has to be taken from a folder,
two points lead back, and whether there is something at the end does not matter. -/
def follow (d : Folder) : (place : List Text) → List Text → InStore Place
  | place, [] => .ok (.inside place)
  | place, n :: rest =>
    match d.entry place with
    | .absent => .error .missing
    | .file _ => .error .noFolder
    | .folder =>
      if isNoStep n then follow d place rest
      else if n == ".." then
        if place.isEmpty then .ok (outsideOf rest) else follow d place.dropLast rest
      else if longestName < (Path.byteSize? n).getD 0 then .error .tooLong
      else follow d (place ++ [n]) rest

/-- Where a way leads. The way as a whole has to be one that can be asked for. -/
def placeOf (p : Path) (d : Folder) : InStore Place :=
  match Path.byteSize? p.text with
  | none => .error .notEncodable
  | some size =>
    if p.text.any (· == '\x00') then .error .notNameable
    else if longestWay < size then .error .tooLong
    else if p.root.isEmpty then d.follow [] p.names
    else .ok (outsideOf p.names)

/-- What there is at a path as it was written. There is no answer for what can be no path. -/
def find (text : Text) (d : Folder) : InStore Entry :=
  match d.placeOf ⟨Path.rootOf text, Text.splitAt '/' text⟩ with
  | .ok (.inside names) => .ok (if text.isEmpty then .absent else d.entry names)
  | .ok (.outside isFolder) => .ok (if isFolder then .folder else .absent)
  | .error .notEncodable => .error .notEncodable
  | .error .notNameable => .error .notNameable
  | .error _ => .ok .absent

/-- Whether a path leads to a folder. -/
def isFolder (p : Path) (d : Folder) : InStore Bool := do
  match ← d.placeOf p with
  | .inside names => return d.hasFolder names
  | .outside _ => return true

/-- What the file at a path holds. -/
def read (p : Path) (d : Folder) : InStore String := do
  match ← d.placeOf p with
  | .outside isFolder => throw (if isFolder then .isFolder else .missing)
  | .inside names =>
    match d.entry names with
    | .file content => return content
    | .folder => throw .isFolder
    | .absent => throw .missing

/-! ### Making files and folders -/

/-- Makes a folder in one that is there already. -/
def makeFolder (p : Path) (d : Folder) : InStore Folder := do
  match ← d.placeOf p with
  | .outside _ => return d
  | .inside names =>
    if d.entry names = .absent then return { d with folders := d.folders ++ [names] }
    else throw .inTheWay

/-- Makes a folder, unless it is there already. -/
def ensureFolder (p : Path) (d : Folder) : InStore Folder :=
  match d.makeFolder p with
  | .ok d => .ok d
  | .error .missing => .error .missing
  | .error fault => do if ← d.isFolder p then return d else throw fault

/-- Makes the folder at the end of a way and those on the way to it, as far as they are not there
already. The names on the way are given from the last one on. -/
def ensureFoldersTo (root : Text) : (names : List Text) → Folder → InStore Folder
  | [], d => .ok d
  | name :: before, d =>
    let p : Path := ⟨root, (name :: before).reverse⟩
    match d.ensureFolder p with
    | .error .missing => do (← ensureFoldersTo root before d).ensureFolder p
    | result => result

/-- Makes the folder at a path and those on the way to it, as far as they are not there already. -/
def ensureFolders (p : Path) (d : Folder) : InStore Folder :=
  ensureFoldersTo p.root p.names.reverse d

/-- Gives a file a content, in place of what it holds. -/
def put (p : Path) (content : String) (d : Folder) : InStore Folder := do
  match ← d.placeOf p with
  | .outside isFolder => if isFolder then throw .isFolder else return d
  | .inside names =>
    if d.hasFolder names then throw .isFolder
    else return { d with files := Entries.put names content d.files }

/-- Writes a text to a file: what there is afterwards, and whether it could be written. -/
def write (p : Path) (text : Text) (d : Folder) : Folder × InStore Unit :=
  match d.put p (text.string?.getD ""), text.string? with
  | .error fault, _ => (d, .error fault)
  | .ok d, some _ => (d, .ok ())
  | .ok d, none => (d, .error .notEncodable)

end Folder

end NodeForge
