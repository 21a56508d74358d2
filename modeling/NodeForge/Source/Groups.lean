import NodeForge.Node.Wire
import NodeForge.Source.Divider
import NodeForge.Source.FieldBlock

/-!
# The fields of an operation

What an operation takes from its user: its parameters, the properties of its standard body, and
its groups of optional fields, where body fields and query fields under one group name share a
control. `operationBlocks` declares them all.
-/

namespace NodeForge.Source

/-! ### Properties -/

/-- The properties of one content type of a body. -/
def contentProperties (content : Fields) : Except Fault Fields := do
  let schema := (Fields.get? "schema" content).getD (.map [])
  ((← schema.field? "properties").getD (.map [])).asFields Value.opened

/-- The properties of a body under all its content types, the later ones counting. -/
def bodyProperties (body : RequestBody) : Except Fault Fields := do
  return (← body.content.mapM fun c => contentProperties c.2).foldl Entries.putAll []

/-- The schema of a parameter with its description inside. -/
def describedSchema (p : Parameter) : Fields :=
  match p.description with
  | some d => if d.isEmpty then p.schema else Fields.put "description" (.str d) p.schema
  | none => p.schema

/-- The properties that a group of query fields makes. -/
def groupProperties (group : FieldGroup) : Fields :=
  Entries.ofList (group.options.map fun p => (.str p.name, .map (describedSchema p)))

/-! ### Groups -/

/-- The properties of each group. -/
abbrev Groups := List (GroupName × Fields)

/-- Adds properties to a group. -/
def Groups.add (groups : Groups) (name : GroupName) (properties : Fields) : Groups :=
  Entries.put name (Entries.putAll ((groups.lookup name).getD []) properties) groups

/-- The groups of optional fields of an operation, those of its bodies first. -/
def groupsOf (o : Operation) : Except Fault Groups := do
  let bodies ← o.extraBodies.mapM fun b => do return (b.name, ← bodyProperties b)
  let queries := o.fieldGroups.map fun g => (g.name, groupProperties g)
  return (bodies ++ queries).foldl (fun groups part => groups.add part.1 part.2) []

/-- The groups as a document. -/
def Groups.dump (groups : Groups) : Value :=
  .record (groups.map fun g => (g.1.text, .map g.2))

/-! ### Blocks -/

/-- Whether a parameter is a query object that is entered as a collection. -/
def isQueryCollection (p : Parameter) : Bool :=
  p.name == "query" && p.location == .query &&
    (Fields.get "properties" (describedSchema p)).truthy

/-- The block for a parameter. -/
def parameterBlock (shown : Lines) (p : Parameter) : Except Fault FieldBlock :=
  let schema := describedSchema p
  if isQueryCollection p then
    FieldBlock.ofGroup "Query" (Fields.get "properties" schema) shown
  else FieldBlock.ofSchema (.str p.name) p.required shown (.map schema)

/-- The blocks for the fields of a standard body. -/
def bodyBlocks (shown : Lines) (body : RequestBody) : Except Fault (List FieldBlock) := do
  (← bodyProperties body).mapM fun e => FieldBlock.ofSchema e.1 true shown e.2

/-- The blocks that come with an operation that retrieves a whole collection. -/
def pagingBlocks (resource : Text) (o : Operation) : List FieldBlock :=
  if o.isGetAll then
    let condition := Condition.of resource o.operationId
    [.returnAll condition.lines, .limit { condition with unlessAll := true }.lines]
  else []

/-- The blocks for all fields of an operation. -/
def operationBlocks (resource : Text) (o : Operation) : Except Fault (List FieldBlock) := do
  let shown := (Condition.of resource o.operationId).lines
  let parameters ← o.parameters.mapM (parameterBlock shown)
  let standard ← o.standardBodies.mapM (bodyBlocks shown)
  let groups ← (← groupsOf o).mapM fun g => FieldBlock.ofGroup g.1.text (.map g.2) shown
  return parameters ++ standard.flatten ++ groups ++ pagingBlocks resource o

/-- The fields of an operation as lines of code, below a divider. -/
def operationFieldLines (resource : Text) (o : Operation) : Except Fault Lines := do
  return (Divider.ofOperation resource o.operationId).lines ++
    FieldBlock.linesOfAll (← operationBlocks resource o)

end NodeForge.Source
