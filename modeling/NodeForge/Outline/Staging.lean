import NodeForge.Endpoint
import NodeForge.Naming.Words
import NodeForge.OpenApi.Staging

/-!
# Staging a custom schema

A custom schema lists the operations of each resource itself. The fields of an operation lie in
buckets (mandatory, additional, filters, updates), each with a part for the query string and a
part for the request body. `stage` brings them into the node model.

Where containers may hold themselves, a value is entered before its members are taken: `enter` is
`Value.opened` then. In all other schemas there is nothing to prepare, and it is `id`.
-/

namespace NodeForge.Outline

variable (enter : Value → Value)

/-! ### Phrases -/

/-- A resource in running text: `orderItem` is an `order item`, a single word stays. -/
def spaced (resource : Text) : Text :=
  let snake := Naming.snake resource
  if Text.contains "_" snake then Text.replace "_" " " snake else resource

/-- Whether a noun takes `an`. -/
def startsWithVowel (noun : Text) : Bool :=
  Text.contains (Text.lower (noun.take 1)) "aeiou"

/-- What is done to one resource. -/
def phraseAbout (verb resource : Text) : Text :=
  verb ++ " " ++ (if startsWithVowel resource then "an" else "a") ++ " " ++ spaced resource

/-- What an operation does, in a phrase. -/
def phrase (operationId resource : Text) : Text :=
  if operationId == "getAll" then "Retrieve all " ++ spaced resource ++ "s"
  else phraseAbout (Text.upperFirst operationId) resource

/-- What a path parameter is for, where the operation is one of the common ones. -/
def placeholderPhrase? (operationId resource : Text) : Option Text :=
  if (["create", "update", "delete"] : List Text).contains operationId then
    some ("ID of the " ++ spaced resource ++ " to " ++ operationId)
  else if operationId == "get" then some ("ID of the " ++ spaced resource ++ " to retrieve")
  else none

/-- The verb of an id in bytes: the first one as a capital letter, shown apart from the others. -/
def verbOfBytes (id : List UInt8) : Text :=
  let capital (b : UInt8) : UInt8 := if 97 ≤ b.toNat && b.toNat ≤ 122 then b - 32 else b
  Quoted.ofBytes ((id.take 1).map capital) ++ Quoted.ofBytes (id.drop 1)

/-- The phrase for an operation whose id and resource may be no texts. -/
def phraseOf (operationId : Value) (resource : Scalar) : Except Fault Text := do
  let resource ← resource.asText .wrongKind
  match operationId with
  | .str id => return phrase id resource
  | .scalar (.bytes id) => return phraseAbout (verbOfBytes id) resource
  | .list _ | .pair _ _ | .again .list _ | .again .pair _ => .error .noSuchMember
  | _ => .error .wrongKind

/-- The phrase for a path parameter of such an operation. -/
def placeholderPhraseOf (operationId : Value) (resource : Scalar) :
    Except Fault (Option Text) :=
  match operationId with
  | .str id =>
    if (["create", "update", "delete", "get"] : List Text).contains id then do
      return placeholderPhrase? id (← resource.asText .wrongKind)
    else .ok none
  | _ => .ok none

/-- A description with its link made to open in a new tab. What is no text has no link to open. -/
def openLinks (description : Value) : Except Fault Value := do
  match description with
  | .str s => return .str (Prose.openLinksApart s)
  | v => if ← v.holds Prose.linkStart then .error .noSuchMember else return v

/-! ### Checking operations -/

/-- The method of an operation in capital letters. -/
def methodText (method : Value) : Except Fault Text := Text.upper <$> method.shown

/-- Whether an operation is about one thing, which its endpoint has to name. -/
def needsRouteParameter (operation : Value) : Except Fault Bool := do
  let method ← methodText ((← operation.field? "requestMethod").getD (.str ""))
  let id ← operation.field "operationId"
  return (method == "GET" && !id.isText "getAll") || method == "DELETE" || method == "PATCH"

/-- Refuses an operation that lacks one of its main keys. -/
def requireKey (operation : Value) (key : Text) : Except Failure Unit := do
  if !(← operation.holds key) then failSpec (.incompleteOperation key operation)

/-- Refuses an operation that lacks a main key, or a placeholder that it needs. -/
def validate (operation : Value) : Except Failure Unit := do
  requireKey operation "endpoint"
  requireKey operation "requestMethod"
  requireKey operation "operationId"
  let operation := enter operation
  if ← needsRouteParameter operation then
    let endpoint ← operation.demand "endpoint"
    if !(← endpoint.holds "\x7b") then
      failSpec (.noRouteParameter (← operation.demand "requestMethod") endpoint)

/-! ### Parameters -/

/-- The required path parameters, one for each placeholder of the endpoint. -/
def stagePath (endpoint : Text) (operationId : Value) (resource : Scalar) :
    Except Failure (List Parameter) :=
  (Endpoint.placeholders endpoint).mapM fun name => do
    return {
      location := .path, name, required := true
      schema := [(.str "type", .str "string"), (.str "default", .str "")]
      description := ← placeholderPhraseOf operationId resource, exampleValue := none }

/-- The schema of a query field: its type and default, and the options where it is a choice. -/
def querySchema (field : Fields) : Fields :=
  let type := (Fields.get? "type" field).getD (.str "string")
  let options := Fields.get "options" field
  [(.str "type", type), (.str "default", Fields.get "default" field)] ++
    if (Fields.get "type" field).isText "options" && options.truthy then
      [(.str "options", options)]
    else []

/-- The description of a field, if it counts as given. -/
def describedBy (field : Fields) : Except Fault (Option Value) := do
  let description := Fields.get "description" field
  if description.truthy then return some (← openLinks description) else return none

/-- A query field as a parameter. -/
def stageQueryField (required : Bool) (key : Scalar) (field : Value) :
    Except Failure Parameter := do
  let field ← (enter (field.orElse (.map []))).fields
  let description ← describedBy field
  Checked.toExcept <|
    (fun name description =>
      { location := .query, name, required, schema := querySchema field, description
        exampleValue := none : Parameter })
      <$> (Wire.checkText (.scalar key)).under "name"
      <*> (Wire.orNull Wire.checkText (description.getD .null)).under "description"

/-- The query fields of a bucket, each as a parameter. -/
def stageQuery (required : Bool) (bucket : Value) : Except Failure (List Parameter) := do
  let fields ← (enter (bucket.orElse (.map []))).field "queryString"
  (← (enter (fields.orElse (.map []))).fields).mapM fun e =>
    stageQueryField enter required e.1 e.2

/-- The query fields of a bucket as one group, if there are any. -/
def stageGroup (name : GroupName) (bucket : Value) : Except Failure (Option FieldGroup) := do
  match ← stageQuery enter false bucket with
  | [] => return none
  | options => return some { name, description := [], default := [], options }

/-! ### Bodies -/

/-- A body field as a property. -/
def bodyProperty (field : Value) : Except Fault Value := do
  let property ← (field.orElse (.map [])).asFields enter
  match ← describedBy property with
  | none => return .map property
  | some description => return .map (Fields.put "description" description property)

/-- Entries in the order of their keys, if these can be ordered. -/
def sortedFields (fields : Fields) : Except Fault Fields :=
  if Scalar.sortable (Entries.keys fields) then .ok (Fields.sorted fields) else .error .wrongKind

/-- The body fields of a bucket as one body, if there are any. -/
def stageBody (name : GroupName) (required : Bool) (bucket : Value) :
    Except Failure (List RequestBody) := do
  let fields ← (enter (bucket.orElse (.map []))).field "requestBody"
  if !fields.truthy then return []
  let properties ← (← (enter fields).fields).mapM fun e => do
    return (e.1, ← (bodyProperty enter e.2 : Except Fault Value))
  let schema := OpenApi.objectSchema (← sortedFields properties)
  return [{
    name, required, description := none
    content := [(OpenApi.formType, [(.str "schema", .map schema)])] }]

/-! ### Operations -/

/-- A key that an operation under a resource has to have. -/
def mainKey (resource : Scalar) (operation : Value) (key : Text) : Except Failure Value :=
  match operation with
  | .map fields =>
    match Fields.get? key fields with
    | some v => .ok v
    | none => failSpec (.operationWithout resource key)
  | _ => .error (.fault .wrongKind)

/-- Stages one operation on a resource. -/
def stageOperation (resource : Scalar) (operation : Value) : Except Failure Operation := do
  let operation := enter operation
  let endpoint ← mainKey resource operation "endpoint"
  let method ← methodText (← mainKey resource operation "requestMethod")
  let id ← mainKey resource operation "operationId"
  let fields ← operation.fields
  let mandatory := Fields.get "requiredFields" fields
  let additional := Fields.get "additionalFields" fields
  let filters := Fields.get "filters" fields
  let updates := Fields.get "updateFields" fields
  let path ← stagePath (← endpoint.asText .wrongKind) id resource
  let mandatoryQuery ← stageQuery enter true mandatory
  let filterGroup ← stageGroup enter .filters filters
  let standard ← stageBody enter .standard true mandatory
  let additionalBody ← stageBody enter .additionalFields false additional
  let filtersBody ← stageBody enter .filters false filters
  let updatesBody ← stageBody enter .updateFields false updates
  let description ← phraseOf id resource
  let additionalFields ← stageGroup enter .additionalFields additional
  let updateFields ← stageGroup enter .updateFields updates
  Checked.toExcept <|
    (fun endpoint operationId operationUrl =>
      { endpoint, requestMethod := method, operationId
        description := some description, summary := none, operationUrl
        parameters := path ++ mandatoryQuery ++ (filterGroup.map FieldGroup.options).getD []
        requestBody := standard ++ additionalBody ++ filtersBody ++ updatesBody
        additionalFields, updateFields : Operation })
      <$> (Wire.checkText endpoint).under "endpoint"
      <*> (Wire.checkText id).under "operation_id"
      <*> (Wire.orNull Wire.checkText (Fields.get "operationUrl" fields)).under "operation_url"

/-- Stages one listed operation, after a check where one is asked for. -/
def stageListed (check : Bool) (resource : Scalar) (operation : Value) :
    Except Failure Operation := do
  if check then validate enter operation
  stageOperation enter resource operation

/-- Stages the operations that are listed under a resource. -/
def stageResource (check : Bool) (resource : Scalar) (listed : Value) :
    Except Failure (List Operation) := do
  let operations ← (enter (listed.orElse (.list []))).members
  return Operation.sortedById (← operations.mapM (stageListed enter check resource))

/-! ### The whole schema -/

/-- The service that a custom schema is about. -/
def stageService (description : Value) : Except Failure Service := do
  match enter description with
  | .map fields =>
    match Fields.get? "serviceName" fields with
    | none => failSpec .noServiceName
    | some name =>
      let color ← ((Fields.get? "nodeColor" fields).getD (.str defaultNodeColor)).shown
      Checked.toExcept <|
        Service.mk <$> (Wire.checkText name).under "service_name"
          <*> (Wire.checkName AuthType.ofText?
            ((Fields.get? "authType" fields).getD (.str "None"))).under "auth_type"
          <*> .good (Text.replace "\\#" "#" color)
          <*> (Wire.checkText ((Fields.get? "apiUrl" fields).getD (.str ""))).under "api_url"
  | _ => failSpec .noServiceName

/-- The resource names of a node model, which have to be texts. -/
def checkResources (staged : List (Scalar × List Operation)) :
    Checked (List (Text × List Operation)) :=
  (Checked.all (fun r => (fun name => (name, r.2)) <$> Wire.checkKey r.1) staged).under
    "main_params"

/-- Stages a custom schema; `check` asks for the check of its operations. -/
def stage (check : Bool) (document : Value) : Except Failure NodeModel := do
  let document := enter document
  match enter (← document.field "mainParams") with
  | .map listed => do
    let staged ← (← sortedFields listed).mapM fun e => do
      return (e.1, ← stageResource enter check e.1 e.2)
    let service ← stageService enter (← document.field "metaParams")
    (NodeModel.mk service <$> checkResources staged).toExcept
  | _ => failSpec .noResources

end NodeForge.Outline
