import NodeForge.Endpoint
import NodeForge.Node.Wire
import NodeForge.OpenApi.Context
import NodeForge.Schema.Form
import NodeForge.Text.Prose

/-!
# Parameters of an operation

The parameters of an operation are those of its path, overridden by its own. They are staged in
three parts: one required path parameter for every placeholder of the endpoint, the required query
parameters under their own names, and all other query parameters together as the properties of one
optional parameter called `query`.
-/

namespace NodeForge.OpenApi

/-! ### Declarations -/

/-- A part of a key: a scalar, or two of them. -/
inductive KeyPart where
  | one (s : Scalar)
  | two (first second : Scalar)

/-- Whether two parts of keys are the same. -/
def KeyPart.same : KeyPart → KeyPart → Bool
  | .one a, .one b => a == b
  | .two a b, .two c d => a == c && b == d
  | _, _ => false

instance : BEq KeyPart := ⟨KeyPart.same⟩

/-- The key by which a declaration overrides another one: where it travels and its name. -/
abbrev DeclarationKey := KeyPart × KeyPart

/-- A value as a part of a key. -/
def keyPart : Value → Except Fault KeyPart
  | .scalar s => .ok (.one s)
  | .pair (.scalar a) (.scalar b) => .ok (.two a b)
  | _ => .error .wrongKind

/-- The name of a declared parameter. -/
def nameOf (raw : Fields) : Value := Fields.get "name" raw

/-- A declared parameter under its key; what is no mapping with a name declares nothing. -/
def declarationOf (raw : Value) : Except Fault (Option (DeclarationKey × Fields)) :=
  match raw with
  | .map fields =>
    if Fields.has "name" fields then do
      return some ((← keyPart (Fields.get "in" fields), ← keyPart (nameOf fields)), fields)
    else .ok none
  | _ => .ok none

/-- The declared parameters of an operation: those of the path and its own, the later of two with
the same key in place of the earlier. -/
def declarations (ctx : Context) : Except Fault (List (DeclarationKey × Fields)) := do
  let own ← parametersOf ctx.entry
  let found ← (ctx.shared.map Value.map ++ own).mapM declarationOf
  return Entries.ofList (found.filterMap id)

/-- The declarations that travel in one place. -/
def declaredIn (place : Text) (declared : List (DeclarationKey × Fields)) : List Fields :=
  (declared.filter fun d => d.1.1 == .one (.str place)).map Prod.snd

/-- Whether a declaration makes its parameter mandatory. -/
def isRequired (raw : Fields) : Bool := (Fields.get "required" raw).truthy

/-! ### Schemas, descriptions and examples -/

/-- The schema keys that a declaration may hold itself. -/
def inlineKeys : List Text :=
  ["type", "format", "enum", "default", "items", "minimum", "maximum", "pattern"]

/-- The schema that a declaration holds itself; its type is text unless it says otherwise. -/
def inlineSchema (raw : Fields) : Fields :=
  let own := inlineKeys.filterMap fun k => (Fields.get? k raw).map fun v => (Scalar.str k, v)
  if Fields.has "type" own then own else own ++ [(.str "type", .str "string")]

/-- The schema of a declared parameter, composed into a plain one. -/
def schemaOf (raw : Fields) : Except Fault Value :=
  match Fields.get "schema" raw with
  | .map es => Schema.compose (.map es)
  | _ => Schema.compose (.map (inlineSchema raw))

/-- A text of a document as one line, if it is a text and there is anything in it. -/
def proseOf (v : Value) : Option Text := v.text?.bind Prose.oneLine?

/-- The description of a declaration or an operation. -/
def descriptionOf (fields : Fields) : Option Text := proseOf (Fields.get "description" fields)

/-- The example of a declaration, if it is a text or a number. -/
def exampleOf (raw : Fields) : Option Example :=
  match Fields.get "example" raw with
  | .str s => some (.text s)
  | .int i => some (.whole i)
  | .float x => some (.real x)
  | .scalar (.noNumber which) => some (.noNumber which)
  | _ => none

/-- The schema of a declaration with its description inside. -/
def describedSchema (raw : Fields) : Except Fault Value := do
  let schema ← schemaOf raw
  match descriptionOf raw with
  | none => return schema
  | some description => do
    let fields ← orFault .wrongKind schema.fields?
    return .map (Fields.put "description" (.str description) fields)

/-- The name of the property that a declared parameter makes. A pair can be no name of a property,
and stands there as null, which can be none either. -/
def propertyKey (name : Value) : Except Fault Scalar := do
  return (← name.asMember).getD .null

/-- The properties that declared parameters make together, one for each. -/
def propertiesOf (declared : List Fields) : Except Fault Fields :=
  declared.mapM fun raw => do return (← propertyKey (nameOf raw), ← describedSchema raw)

/-- A schema of an object with the given properties. -/
def objectSchema (properties : Fields) : Fields :=
  [(.str "type", .str "object"), (.str "properties", .map properties)]

/-! ### Staging -/

/-- Stages one declared parameter. -/
def stageParameter (location : Location) (method : Text) (required : Bool) (raw : Fields) :
    Except Failure Parameter := do
  let schema ← Schema.toForm method (← schemaOf raw)
  let name ← ((Wire.checkText (nameOf raw)).under "name").toExcept
  return {
    location, name, required, schema
    description := descriptionOf raw, exampleValue := exampleOf raw }

/-- What is staged for a placeholder that no parameter is declared for. -/
def undeclared (name : Text) : Fields :=
  [(.str "in", .str "path"), (.str "name", .str name),
    (.str "schema", .map [(.str "type", .str "string")])]

/-- The optional query parameters as one parameter. -/
def stageOptional (method : Text) (optional : List Fields) : Except Failure Parameter := do
  let schema ← Schema.formOfFields method (objectSchema (← propertiesOf optional))
  return {
    location := .query, name := "query", required := false, schema
    description := none, exampleValue := none }

/-- The warnings for declared path parameters without a placeholder. -/
def droppedParameters (endpoint : Text) (names : List Text) (declared : List Fields) :
    List Warning :=
  (declared.filter fun raw => !names.any fun n => (nameOf raw).isText n).map fun raw =>
    .parameterDropped (nameOf raw) endpoint

/-- The parameters of an operation, with the warnings about those that are left out. -/
def stageParameters (ctx : Context) : Except Failure (List Parameter × List Warning) := do
  let declared ← declarations ctx
  let inPath := declaredIn "path" declared
  let endpoint ← ctx.endpoint.asText .wrongKind
  let names := Endpoint.placeholders endpoint
  let path ← names.mapM fun name =>
    let raw := inPath.find? fun raw => (nameOf raw).isText name
    stageParameter .path ctx.method true (raw.getD (undeclared name))
  let inQuery := declaredIn "query" declared
  let required ← (inQuery.filter isRequired).mapM (stageParameter .query ctx.method true)
  let optional := inQuery.filter fun raw => !isRequired raw
  let grouped ←
    if optional.isEmpty then pure []
    else do pure [← stageOptional ctx.method optional]
  return (path ++ required ++ grouped, droppedParameters endpoint names inPath)

end NodeForge.OpenApi
