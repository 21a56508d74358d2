import NodeForge.Failure
import NodeForge.Yaml.Reader

/-!
# Descriptions of services in files

A service is described in a file in one of two formats: as an OpenAPI document, or as a custom
schema that lists the operations of its node. Both are mappings written in YAML, of which JSON is a
part.
-/

namespace NodeForge

/-- A description as it has been read. -/
structure Description where
  fields : Fields
  /-- The number of the nodes in it, each of which may have many places. -/
  nodeCount : Nat
  /-- Whether some container in it holds itself. -/
  isKnotted : Bool

namespace Description

/-- How the values of a description are entered: where no container holds itself, there is nothing
to prepare for taking a member. -/
def enter (d : Description) : Value → Value := if d.isKnotted then Value.opened else id

/-! ### Formats -/

/-- The format of a description. -/
inductive Format where
  | openApi
  | custom
deriving Repr, DecidableEq

/-- The name of a format. -/
def Format.name : Format → Text
  | .openApi => "openapi"
  | .custom => "custom"

/-- The format of a description by the keys that it has. -/
def formatOf (file : Text) (d : Description) : Except Failure Format :=
  if Fields.has "openapi" d.fields || Fields.has "swagger" d.fields then .ok .openApi
  else if Fields.has "mainParams" d.fields then .ok .custom
  else failSpec (.unknownFormat file)

/-! ### Reading -/

/-- Every line end as a line feed. -/
def unifyLineEnds : List Char → List Char
  | '\r' :: '\n' :: rest => '\n' :: unifyLineEnds rest
  | c :: rest => (if c == '\r' then '\n' else c) :: unifyLineEnds rest
  | [] => []

/-- The content of a file as it is read. -/
def fileText (content : String) : String := String.ofList (unifyLineEnds content.toList)

/-- The description in the content of a file, which has to be a mapping. -/
def read (file : Text) (content : String) : Except Failure Description :=
  match Yaml.read (fileText content) with
  | .ok ⟨.map fields, nodeCount, isKnotted⟩ => .ok ⟨fields, nodeCount, isKnotted⟩
  | .ok _ => failSpec (.fileNotMapping file)
  | .error .malformed => failSpec (.unreadableFile file)
  | .error (.fault f) => .error (.fault f)

end Description

end NodeForge
