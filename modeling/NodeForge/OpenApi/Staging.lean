import NodeForge.OpenApi.Body
import NodeForge.OpenApi.Service

/-!
# Staging an API description

`stage` turns an OpenAPI or Swagger document without references into a node model: its resources
in the order of their names, and on each the operations in the order of their ids. The ids are
assigned in the order of the document, since of two operations that want one id the earlier one
gets it.
-/

namespace NodeForge

/-- A node model with what is worth telling about it. -/
structure Staged where
  model : NodeModel
  warnings : List Warning

namespace OpenApi

/-- Stages one operation under its id. -/
def stageOperation (ctx : Context) (id : Text) : Except Failure (Operation × List Warning) := do
  let docs := (Fields.get "externalDocs" ctx.entry).orElse (.map [])
  let url ← docs.field "url"
  let (parameters, warnings) ← stageParameters ctx
  let requestBody ← stageBodies ctx
  let operation ← Checked.toExcept <|
    (fun endpoint url =>
      { endpoint, requestMethod := Text.upper ctx.method, operationId := id
        description := descriptionOf ctx.entry
        summary := proseOf (Fields.get "summary" ctx.entry)
        operationUrl := url, parameters, requestBody
        additionalFields := none, updateFields := none : Operation })
      <$> (Wire.checkText (.scalar ctx.endpoint)).under "endpoint"
      <*> (Wire.orNull Wire.checkText url).under "operation_url"
  return (operation, warnings)

/-- The id candidate of one operation. -/
def candidateOf (ctx : Context) : Except Fault Candidate :=
  Candidate.derive (Fields.get "operationId" ctx.entry) ctx.resource ctx.method ctx.endpoint
    (Fields.get "summary" ctx.entry)

/-- Stages the operations on one resource. -/
def stageResource (contexts : List Context) : Except Failure (List Operation × List Warning) := do
  let candidates ← (contexts.mapM candidateOf : Except Fault (List Candidate))
  let staged ← (contexts.zip (assignIds candidates)).mapM fun (ctx, id) => stageOperation ctx id
  return (Operation.sortedById (staged.map Prod.fst),
    renamings candidates ++ (staged.map Prod.snd).flatten)

/-- The resources of some contexts, in order. -/
def resourceNames (contexts : List Context) : List Text :=
  Text.sorted (Entries.distinct (contexts.map Context.resource))

/-- Stages a document, under a given name for the service or its own. -/
def stage (given : Option Text) (nodeColor : Text) (document : Value) :
    Except Failure Staged := do
  let found ← contexts document
  let staged ← (resourceNames found).mapM fun resource => do
    return (resource, ← stageResource (found.filter fun c => c.resource == resource))
  let service ← stageService given nodeColor document
  return {
    model := { service, resources := staged.map fun (resource, ops, _) => (resource, ops) }
    warnings := (staged.map fun (_, _, warnings) => warnings).flatten }

end OpenApi

end NodeForge
