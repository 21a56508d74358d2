import NodeForge.OpenApi.Parameters

/-!
# The body of a request

The fields of a request body are staged in two parts, by content type: the mandatory ones in the
standard body, and the optional ones in a body of extra fields. An older description declares its
body among the parameters; it is first brought into the newer shape.
-/

namespace NodeForge.OpenApi

/-- Form data. -/
def formType : Text := "application/x-www-form-urlencoded"

/-- JSON data. -/
def jsonType : Text := "application/json"

/-- Plain text. -/
def plainType : Text := "text/plain"

/-- The content types that are staged, in their order. -/
def bodyTypes : List Text := [formType, jsonType, plainType]

/-! ### Bodies among the parameters -/

/-- The body that a `body` parameter declares. -/
def bodyOfParameter (raw : Fields) : Fields :=
  let schema := (Fields.get "schema" raw).orElse (.map [])
  [(.str "description", Fields.get "description" raw),
    (.str "required", (Fields.get? "required" raw).getD (.bool false)),
    (.str "content", .record [(jsonType, .record [("schema", schema)])])]

/-- The body that form parameters declare together. -/
def bodyOfForm (form : List Fields) : Except Fault Fields := do
  let properties ← propertiesOf form
  let required := (form.filter isRequired).map nameOf
  let schema := objectSchema properties ++ [(.str "required", .list required)]
  return [(.str "content", .record [(formType, .record [("schema", .map schema)])])]

/-- The body that the parameters of an operation declare, if they do. -/
def declaredBody (ctx : Context) : Except Fault (Option Fields) := do
  let declared ← declarations ctx
  match declaredIn "body" declared with
  | raw :: _ => return some (bodyOfParameter raw)
  | [] =>
    match declaredIn "formData" declared with
    | [] => return none
    | form => return some (← bodyOfForm form)

/-- The body of an operation: its own, or the one that its parameters declare. -/
def bodyOf (ctx : Context) : Except Fault (Option Fields) :=
  match Fields.get "requestBody" ctx.entry with
  | .map fields => .ok (some fields)
  | _ => declaredBody ctx

/-! ### Schemas by content type -/

/-- The name of the field of a plain-text body where its description does not give one. -/
def plainFieldDefault : Text := "body"

/-- A byte of white space. -/
def isBlankByte (b : UInt8) : Bool := b == 32 || (9 ≤ b && b ≤ 13)

/-- The name of the one field of a plain-text body: the first word of its description in small
letters, without what belongs to no word. Words of bytes do not give a name. -/
def plainFieldName (body : Fields) : Except Fault Text :=
  match (Fields.get "description" body).orElse (.str "") with
  | .scalar (.bytes bs) =>
    if bs.all isBlankByte then .ok plainFieldDefault else .error .wrongKind
  | description => do
    let word := (Text.words (← description.asText .noSuchMember)).headD []
    let name := Text.lower (word.filter (Sign.meets Letter.isWordChar))
    return if name.isEmpty then plainFieldDefault else name

/-- The schema of a plain-text body: an object with one field. -/
def plainSchema (media body : Fields) : Except Fault Fields := do
  let name ← plainFieldName body
  let schema := (Fields.get "schema" media).orElse (.record [("type", .str "string")])
  let field ← Schema.compose schema
  let required := if isRequired body then [Value.str name] else []
  return objectSchema [(.str name, field)] ++ [(.str "required", .list required)]

/-- The form for one content type of a body. -/
def mediaForm (method contentType : Text) (media body : Fields) : Except Failure Fields := do
  if contentType == plainType then Schema.formOfFields method (← plainSchema media body)
  else
    let schema := (Fields.get "schema" media).orElse (.map [])
    Schema.toForm method (← Schema.compose schema)

/-- What one content type contributes: its mandatory and its optional properties. -/
structure MediaPart where
  contentType : Text
  mandatory : Fields
  optional : Fields

/-- The part of one content type; one whose entry is no mapping has none. -/
def mediaPart (method : Text) (content : Value) (body : Fields) (contentType : Text) :
    Except Failure (Option MediaPart) := do
  match ← content.field contentType with
  | .map media => do
    let form ← mediaForm method contentType media body
    let (mandatory, optional) ← Schema.splitRequired (.map form)
    return some { contentType, mandatory, optional }
  | _ => return none

/-! ### Staging -/

/-- The name of the group that extra fields make. -/
def extraGroup (method : Text) : GroupName :=
  if (["PUT", "PATCH"] : List Text).contains (Text.upper method) then .updateFields
  else .additionalFields

/-- The content of a body: a schema with the given properties for every content type that has
any. -/
def contentOf (properties : MediaPart → Fields) (parts : List MediaPart) :
    List (Text × Fields) :=
  (parts.filter fun p => !(properties p).isEmpty).map fun p =>
    (p.contentType, [(.str "schema", .map (objectSchema (properties p)))])

/-- The bodies that the parts of a request body make: the standard one and the extra one, each
only if it has content. -/
def bodiesOf (method : Text) (description : Option Text) (parts : List MediaPart) :
    List RequestBody :=
  let standard := contentOf MediaPart.mandatory parts
  let extra := contentOf MediaPart.optional parts
  (if standard.isEmpty then [] else
    [{ name := .standard, required := true, description, content := standard }]) ++
  (if extra.isEmpty then [] else
    [{ name := extraGroup method, required := false, description := none, content := extra }])

/-- The bodies of an operation. -/
def stageBodies (ctx : Context) : Except Failure (List RequestBody) := do
  match ← bodyOf ctx with
  | none | some [] => return []
  | some body => do
    let content := (Fields.get "content" body).orElse (.map [])
    let parts ← bodyTypes.mapM (mediaPart ctx.method content body)
    return bodiesOf ctx.method (descriptionOf body) (parts.filterMap id)

end NodeForge.OpenApi
