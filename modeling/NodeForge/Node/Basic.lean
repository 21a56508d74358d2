import NodeForge.Document.Value

/-!
# The node model

Every description, of whatever format, is staged into one model: a service with its resources, and
for each resource the operations on it. The generated code and the dumps are made from the model
alone.
-/

namespace NodeForge

/-- Where a parameter travels: in the path or in the query string. -/
inductive Location where
  | path
  | query
deriving Repr, DecidableEq

/-- How a service identifies its callers. -/
inductive AuthType where
  | oauth2
  | apiKey
  | anonymous
deriving Repr, DecidableEq

/-- The groups that the fields of a request fall into. -/
inductive GroupName where
  | standard
  | additionalFields
  | updateFields
  | filters
deriving Repr, DecidableEq

/-- An example value of a parameter. -/
inductive Example where
  | text (s : Text)
  | whole (i : Int)
  | real (x : Float)
  /-- A result that is no number; `which` tells it from the others. -/
  | noNumber (which : Nat)
deriving Repr

/-- A path or query parameter. -/
structure Parameter where
  location : Location
  name : Text
  required : Bool
  schema : Fields
  description : Option Text
  exampleValue : Option Example

/-- A part of a request body: its schemas by content type. -/
structure RequestBody where
  name : GroupName
  required : Bool
  description : Option Text
  content : List (Text × Fields)

/-- Query parameters that are offered together under one control. -/
structure FieldGroup where
  name : GroupName
  description : Text
  default : Fields
  options : List Parameter

/-- One operation of a service. -/
structure Operation where
  endpoint : Text
  requestMethod : Text
  operationId : Text
  description : Option Text
  summary : Option Text
  operationUrl : Option Text
  parameters : List Parameter
  requestBody : List RequestBody
  additionalFields : Option FieldGroup
  updateFields : Option FieldGroup

/-- What a service is and how it is reached. -/
structure Service where
  serviceName : Text
  authType : AuthType
  nodeColor : Text
  apiUrl : Text
deriving Repr, DecidableEq

/-- A service with its resources and the operations on each. -/
structure NodeModel where
  service : Service
  resources : List (Text × List Operation)

/-- The colour of a node for which none is chosen. -/
def defaultNodeColor : Text := "#ffffff"

/-! ### Spelling -/

/-- The name of a location. -/
def Location.text : Location → Text
  | .path => "path"
  | .query => "query"

/-- The name of an authentication type. -/
def AuthType.text : AuthType → Text
  | .oauth2 => "OAuth2"
  | .apiKey => "ApiKey"
  | .anonymous => "None"

/-- The name of a group. -/
def GroupName.text : GroupName → Text
  | .standard => "Standard"
  | .additionalFields => "Additional Fields"
  | .updateFields => "Update Fields"
  | .filters => "Filters"

/-- The locations. -/
def Location.all : List Location := [.path, .query]

/-- The authentication types. -/
def AuthType.all : List AuthType := [.oauth2, .apiKey, .anonymous]

/-- The groups. -/
def GroupName.all : List GroupName := [.standard, .additionalFields, .updateFields, .filters]

/-- The location with a given name. -/
def Location.ofText? (name : Text) : Option Location := all.find? fun l => l.text == name

/-- The authentication type with a given name. -/
def AuthType.ofText? (name : Text) : Option AuthType := all.find? fun a => a.text == name

/-- The group with a given name. -/
def GroupName.ofText? (name : Text) : Option GroupName := all.find? fun g => g.text == name

theorem Location.ofText?_text (l : Location) : Location.ofText? l.text = some l := by
  cases l <;> rfl

theorem AuthType.ofText?_text (a : AuthType) : AuthType.ofText? a.text = some a := by
  cases a <;> rfl

theorem GroupName.ofText?_text (g : GroupName) : GroupName.ofText? g.text = some g := by
  cases g <;> rfl

/-! ### Views of an operation -/

namespace Operation

/-- The path parameters in their order. -/
def pathParameters (o : Operation) : List Parameter := o.parameters.filter (·.location == .path)

/-- The query parameters in their order. -/
def queryParameters (o : Operation) : List Parameter := o.parameters.filter (·.location == .query)

/-- Whether the operation retrieves a whole collection. -/
def isGetAll (o : Operation) : Bool := o.operationId == "getAll"

/-- The bodies that hold the standard fields. -/
def standardBodies (o : Operation) : List RequestBody := o.requestBody.filter (·.name == .standard)

/-- The bodies that hold extra fields. -/
def extraBodies (o : Operation) : List RequestBody := o.requestBody.filter (·.name != .standard)

/-- The groups of query fields, additional before update fields. -/
def fieldGroups (o : Operation) : List FieldGroup :=
  o.additionalFields.toList ++ o.updateFields.toList

/-- Operations in the order of their ids; those with one id keep their order. -/
def sortedById (operations : List Operation) : List Operation :=
  operations.mergeSort fun a b => Text.atMost a.operationId b.operationId

end Operation

/-! ### Sameness

Two operations are the same when all their parts are, where the schemas inside them are compared as
document values: without regard to the order of keys, and numbers by value. -/

/-- Whether two examples are the same. -/
def Example.same : Example → Example → Bool
  | .text s, .text t => s == t
  | .whole i, .whole j => i == j
  | .real x, .real y => (Scalar.float x).same (.float y)
  | .noNumber a, .noNumber b => a == b
  | .whole i, .real x | .real x, .whole i => (Scalar.int i).same (.float x)
  | _, _ => false

/-- Whether two optional things are both absent or both there and the same. -/
def sameOption {α : Type} (same : α → α → Bool) : Option α → Option α → Bool
  | none, none => true
  | some a, some b => same a b
  | _, _ => false

/-- Whether two rows are the same one by one. -/
def sameRow {α : Type} (same : α → α → Bool) : List α → List α → Bool
  | [], [] => true
  | a :: as, b :: bs => same a b && sameRow same as bs
  | _, _ => false

/-- Whether two mappings hold the same. -/
def Fields.same (a b : Fields) : Bool := (Value.map a).same (.map b)

/-- Whether two parameters are the same. -/
def Parameter.same (a b : Parameter) : Bool :=
  a.location == b.location && a.name == b.name && a.required == b.required &&
    Fields.same a.schema b.schema && a.description == b.description &&
    sameOption Example.same a.exampleValue b.exampleValue

/-- Whether two bodies are the same. -/
def RequestBody.same (a b : RequestBody) : Bool :=
  a.name == b.name && a.required == b.required && a.description == b.description &&
    Fields.same (a.content.map fun e => (.str e.1, .map e.2))
      (b.content.map fun e => (.str e.1, .map e.2))

/-- Whether two groups are the same. -/
def FieldGroup.same (a b : FieldGroup) : Bool :=
  a.name == b.name && a.description == b.description && Fields.same a.default b.default &&
    sameRow Parameter.same a.options b.options

/-- Whether two operations are the same. -/
def Operation.same (a b : Operation) : Bool :=
  a.endpoint == b.endpoint && a.requestMethod == b.requestMethod &&
    a.operationId == b.operationId && a.description == b.description &&
    a.summary == b.summary && a.operationUrl == b.operationUrl &&
    sameRow Parameter.same a.parameters b.parameters &&
    sameRow RequestBody.same a.requestBody b.requestBody &&
    sameOption FieldGroup.same a.additionalFields b.additionalFields &&
    sameOption FieldGroup.same a.updateFields b.updateFields

end NodeForge
