import NodeForge.Source.Groups

/-!
# Requests

The code that runs an operation reads the fields of the node, puts them into the query string or
the body, and calls the service. The code is built as a row of statements; `Statement.lines`
writes one out.
-/

namespace NodeForge.Source

/-- What the fields of an operation are sent in. -/
inductive Carrier where
  | query
  | body
deriving Repr, DecidableEq

/-- The variable of a carrier. -/
def Carrier.text : Carrier → Text
  | .query => "qs"
  | .body => "body"

/-- The call that ends a request. -/
structure Call where
  /-- The helper that sends requests. -/
  helper : Text
  method : Text
  withQuery : Bool
  withBody : Bool
  /-- Whether a whole collection is retrieved. -/
  getAll : Bool
deriving Repr, DecidableEq

/-- A statement of the code that runs an operation. -/
inductive Statement where
  /-- Reads a path parameter into a constant. -/
  | readPath (constant name : Text)
  /-- Begins an empty carrier. -/
  | begin (carrier : Carrier)
  /-- Reads a field into a key of a carrier. -/
  | store (carrier : Carrier) (key name type : Text)
  /-- Reads a group of fields into a constant. -/
  | readGroup (constant name : Text)
  /-- Copies a group of fields into a carrier. -/
  | copy (carrier : Carrier) (constant : Text)
  /-- Sets the endpoint from a template. -/
  | endpoint (template : Text)
  | call (c : Call)
deriving Repr, DecidableEq

/-! ### Writing -/

/-- The expression that reads a field. -/
def readExpression (name type : Text) : Text :=
  "this.getNodeParameter('" ++ name ++ "', i) as " ++ type ++ ";"

/-- A constant that is set to a field. -/
def constantLine (constant name type : Text) : Text :=
  "const " ++ constant ++ " = " ++ readExpression name type

/-- The arguments of a call. An empty carrier that is not the last argument is written as an empty
object; retrieving a whole collection always passes both carriers. -/
def Call.arguments (c : Call) : Text :=
  let body : Text := if c.withBody then "body" else "\x7b\x7d"
  let query : Text := if c.withQuery then "qs" else "\x7b\x7d"
  let first : List Text := ["this", "'" ++ c.method ++ "'", "endpoint"]
  Text.joined ", " <|
    first ++ (if c.withBody || c.withQuery || c.getAll then [body] else []) ++
    (if c.withQuery || c.getAll then [query] else [])

/-- The name of the helper that retrieves a whole collection. -/
def allItems (helper : Text) : Text := helper ++ "AllItems"

/-- A call as lines of code. -/
def Call.lines (c : Call) : Lines :=
  let all := allItems c.helper
  if c.getAll then
    [constantLine "returnAll" "returnAll" "boolean", "if (returnAll) \x7b",
      "\tresponseData = await " ++ all ++ ".call(" ++ c.arguments ++ ");", "\x7d else \x7b",
      "\t" ++ constantLine "limit" "limit" "number",
      "\tresponseData = await " ++ all ++ ".call(" ++ c.arguments ++ ", limit);", "\x7d"]
  else ["responseData = await " ++ c.helper ++ ".call(" ++ c.arguments ++ ");"]

/-- A statement as lines of code. -/
def Statement.lines : Statement → Lines
  | .readPath constant name => [constantLine constant name "string"]
  | .begin carrier => ["const " ++ carrier.text ++ ": IDataObject = \x7b\x7d;"]
  | .store carrier key name type =>
    [carrier.text ++ "." ++ key ++ " = " ++ readExpression name type]
  | .readGroup constant name => [constantLine constant name "IDataObject"]
  | .copy carrier constant => ["Object.assign(" ++ carrier.text ++ ", " ++ constant ++ ");"]
  | .endpoint template => ["const endpoint = `" ++ template ++ "`;"]
  | .call c => c.lines

/-! ### Building -/

/-- An endpoint as a template: every opening brace begins an expression. -/
def templateOf (endpoint : Text) : Text := Text.replace "\x7b" "$\x7b" endpoint

/-- The template of an operation's endpoint, with the constants of its path parameters. -/
def endpointTemplate (o : Operation) : Text :=
  let named (name : Text) : Text := "\x7b" ++ name ++ "\x7d"
  templateOf <|
    o.pathParameters.foldl
      (fun endpoint p => Text.replace (named p.name) (named (Naming.camel p.name)) endpoint)
      o.endpoint

/-- Reads the path parameters. -/
def pathStatements (o : Operation) : List Statement :=
  o.pathParameters.map fun p => .readPath (Naming.camel p.name) p.name

/-- Reads a group of fields and copies it into a carrier. -/
def groupStatements (carrier : Carrier) (name : GroupName) : List Statement :=
  let constant := Naming.camel name.text
  [.readGroup constant constant, .copy carrier constant]

/-- Reads a query parameter: the optional one called `query` as a group, any other one into a
key. -/
def queryStatements (p : Parameter) : Except Fault (List Statement) := do
  if p.name == "query" && !p.required then
    return [.readGroup "query" "query", .copy .query "query"]
  else
    return [.store .query (Naming.camel p.name) p.name (← valueType (.map p.schema))]

/-- The names of the groups that travel in the body. -/
def bodyGroups (o : Operation) : List GroupName := o.extraBodies.map RequestBody.name

/-- Statements that fill a carrier, after the one that begins it. -/
def filling (carrier : Carrier) (statements : List Statement) : List Statement :=
  if statements.isEmpty then [] else .begin carrier :: statements

/-- Fills the query string. -/
def queryFilling (o : Operation) : Except Fault (List Statement) := do
  let single ← o.queryParameters.mapM queryStatements
  let groups := o.fieldGroups.filter fun g => !(bodyGroups o).contains g.name
  return filling .query (single.flatten ++ groups.flatMap fun g => groupStatements .query g.name)

/-- Reads a field of the standard body. -/
def fieldStatement (key : Scalar) (schema : Value) : Except Fault Statement := do
  let name ← key.asText .wrongKind
  return .store .body (Naming.camel name) name (← valueType schema)

/-- Fills the body. -/
def bodyFilling (o : Operation) : Except Fault (List Statement) := do
  let standard ← o.standardBodies.mapM fun b => do
    (← bodyProperties b).mapM fun e => fieldStatement e.1 e.2
  let groups := (← groupsOf o).filter fun g => (bodyGroups o).contains g.1
  return filling .body (standard.flatten ++ groups.flatMap fun g => groupStatements .body g.1)

/-- The call of an operation. -/
def callOf (helper : Text) (o : Operation) (withQuery withBody : Bool) : Call :=
  { helper, method := o.requestMethod, withQuery, withBody, getAll := o.isGetAll }

/-- The statements that run an operation. -/
def requestStatements (helper : Text) (o : Operation) : Except Fault (List Statement) := do
  let query ← queryFilling o
  let body ← bodyFilling o
  return pathStatements o ++ query ++ body ++
    [.endpoint (endpointTemplate o),
      .call (callOf helper o (!query.isEmpty) (!body.isEmpty))]

/-- The code that runs an operation, as lines. -/
def requestLines (helper : Text) (o : Operation) : Except Fault Lines := do
  return (← requestStatements helper o).flatMap Statement.lines

end NodeForge.Source
