import NodeForge.Failure
import NodeForge.Naming.OperationId

/-!
# What a description says about operations

An OpenAPI or Swagger description lists its operations by path and method, and each of them names
the resources that it belongs to by its tags. `contexts` reads all of this off a document: one
context for every path, every method and every resource, in the order of the document.
-/

namespace NodeForge.OpenApi

/-- All that is known about one operation on one resource. -/
structure Context where
  endpoint : Scalar
  method : Text
  resource : Text
  entry : Fields
  /-- The parameters that are declared for all methods of the path. -/
  shared : List Fields

/-- The keys of a path item that are methods, in small letters. -/
def httpMethods : List Text :=
  ["get", "put", "post", "delete", "patch", "options", "head", "trace"]

/-- Tags that stand for no resource. -/
def excludedTags : List Text := ["OAuth"]

/-! ### Resources -/

/-- The resource that a tag stands for: its singular in small letters. -/
def resourceOf (tag : Text) : Text := Text.lower (Naming.singular (Text.trim tag))

/-- The tag of an operation without tags: the first fixed segment of its endpoint. -/
def pathTag (endpoint : Text) : Text := (Naming.fixedSegments endpoint).headD "default"

/-- The text of a tag. -/
def tagText (endpoint : Scalar) (tag : Value) : Except Failure Text :=
  match tag with
  | .str s => .ok s
  | tag => failSpec (.tagNotText tag endpoint)

/-- The resources of an operation, each once. -/
def resourcesOf (entry : Value) (endpoint : Scalar) : Except Failure (List Text) := do
  let tags := (← entry.field "tags").orElse (.list [])
  let tags ←
    if tags.truthy then (← tags.members).mapM (tagText endpoint)
    else do pure [pathTag (← endpoint.asText .noSuchMember)]
  return Entries.distinct ((tags.filter fun t => !excludedTags.contains t).map resourceOf)

/-! ### Paths and methods -/

/-- The paths of a document. -/
def pathsOf (document : Value) : Except Failure Fields := do
  if !(← document.holds "paths") then failSpec .noPaths
  match ← document.demand "paths" with
  | .map (p :: ps) => return p :: ps
  | _ => failSpec .emptyPaths

/-- Whether a key of a path item is a method; bytes are none. -/
def isMethod : Scalar → Except Fault Bool
  | .bytes _ => .ok false
  | key => do return httpMethods.contains (Text.lower (← key.asText .noSuchMember))

/-- The values that are mappings. -/
def mappingsOf (values : List Value) : List Fields := values.filterMap Value.fields?

/-- The values under `parameters`, in an operation or a path item. -/
def parametersOf (fields : Fields) : Except Fault (List Value) :=
  ((Fields.get "parameters" fields).orElse (.list [])).members

/-- The contexts of one method of a path. -/
def methodContexts (endpoint : Scalar) (shared : List Fields) (method : Text) (entry : Value) :
    Except Failure (List Context) :=
  match entry with
  | .map fields => do
    let resources ← resourcesOf entry endpoint
    return resources.map fun resource =>
      { endpoint, method := Text.lower method, resource, entry := fields, shared }
  | _ => failSpec (.entryNotMapping (Text.upper method) endpoint)

/-- The contexts of one path. -/
def pathContexts (endpoint : Scalar) (item : Value) : Except Failure (List Context) :=
  match item with
  | .map fields => do
    let methods ← fields.filterM fun e => isMethod e.1
    if methods.isEmpty then failSpec (.noMethods endpoint)
    let shared := mappingsOf (← parametersOf fields)
    let contexts ← methods.mapM fun e => do
      methodContexts endpoint shared (← e.1.asText .noSuchMember) e.2
    return contexts.flatten
  | _ => failSpec (.pathNotMapping endpoint)

/-- The contexts of a document. -/
def contexts (document : Value) : Except Failure (List Context) := do
  let paths ← pathsOf document
  return (← paths.mapM fun e => pathContexts e.1 e.2).flatten

end NodeForge.OpenApi
