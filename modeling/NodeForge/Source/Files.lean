import NodeForge.Source.Dispatch

/-!
# The files of a node

The generated code comes in an imports file, a file with the dispatch, an index of descriptions and
one description file for every resource. `filesOf` gives them all with their paths. What a file
takes from the others and what it offers to them is listed apart from its text, so that the two
sides can be compared.
-/

namespace NodeForge.Source

/-- The helper that sends the requests of a service. -/
def helperOf (service : Service) : Text := Naming.camel service.serviceName ++ "ApiRequest"

/-! ### Imports -/

/-- The request helpers that the generated code takes from elsewhere. -/
def importedHelpers (m : NodeModel) : List Text :=
  let helper := helperOf m.service
  if m.resources.any fun r => r.2.any Operation.isGetAll then [helper, allItems helper]
  else [helper]

/-- The names that the description file of a resource offers: its fields and its operations. -/
def fieldsName (resource : Text) : Text := Naming.camel resource ++ "Fields"

/-- The name under which the operations of a resource are offered. -/
def operationsName (resource : Text) : Text := Naming.camel resource ++ "Operations"

/-- The names that the generated code takes from the description files. -/
def importedDescriptions (m : NodeModel) : List Text :=
  m.resources.flatMap fun r => [fieldsName r.1, operationsName r.1]

/-- An import of some names from a module. -/
def importLines (names : List Text) (module : Text) : Lines :=
  code [["import \x7b"], names.map fun n => "\t" ++ n ++ ",", ["\x7d from '" ++ module ++ "';"]]

/-- The import of the request helpers. -/
def helperImport (m : NodeModel) : Lines :=
  importLines (importedHelpers m) "./GenericFunctions"

/-- The lines of the imports file. -/
def importsFile (m : NodeModel) : Lines :=
  code [
    ["import \x7b IExecuteFunctions \x7d from 'n8n-core';",
      "import \x7b IDataObject, INodeExecutionData, INodeType, INodeTypeDescription \x7d " ++
        "from 'n8n-workflow';", []],
    helperImport m, [[]], importLines (importedDescriptions m) "./descriptions"]

/-! ### Descriptions -/

/-- The lines of an operation in the list of operations. -/
def optionLines (o : Operation) : Lines :=
  let line (key : Text) (text : Option Text) : Lines :=
    match text with
    | some t => if t.isEmpty then [] else ["\t" ++ FieldBlock.quotedLine key t]
    | none => []
  code [
    ["\x7b", "\t" ++ FieldBlock.quotedLine "name" (Naming.capital o.operationId),
      "\t" ++ FieldBlock.quotedLine "value" (literal o.operationId)],
    line "description" o.description, line "action" o.summary, ["\x7d,"]]

/-- The list of operations, by their ids; without operations it is one empty line. -/
def optionsLines (operations : List Operation) : Lines :=
  match Operation.sortedById operations with
  | [] => [[]]
  | sorted => sorted.flatMap optionLines

/-- The lines of the description file of a resource. -/
def descriptionFile (resource : Text) (operations : List Operation) :
    Except Fault Lines := do
  let fields ← operations.mapM (operationFieldLines resource)
  let default := (operations.head?.map fun o => literal o.operationId).getD []
  return code [
    ["import \x7b INodeProperties \x7d from 'n8n-workflow';", [],
      "export const " ++ operationsName resource ++ ": INodeProperties[] = [", "\x7b",
      "displayName: 'Operation',", "name: 'operation',", "type: 'options',",
      "noDataExpression: true,", "displayOptions: \x7b", "show: \x7b",
      "resource: ['" ++ literal resource ++ "'],", "\x7d,", "\x7d,", "options: ["],
    optionsLines operations,
    ["],", "default: '" ++ default ++ "',", "\x7d,", "];", [],
      "export const " ++ fieldsName resource ++ ": INodeProperties[] = ["],
    fields.flatten, ["];"]]

/-- The module of the description of a resource. -/
def descriptionModule (resource : Text) : Text := Naming.pascal resource ++ "Description"

/-- The lines of the index of descriptions; without resources it is one empty line. -/
def indexFile (m : NodeModel) : Lines :=
  match m.resources with
  | [] => [[]]
  | resources => resources.map fun r => "export * from './" ++ descriptionModule r.1 ++ "';"

/-! ### All files -/

/-- A file: its path and its text. -/
abbrev File := Text × Text

/-- The text of a file of lines, which ends with a line end. -/
def fileText (lines : Lines) : Text := Text.unlines lines ++ "\n"

/-- The path of the description file of a resource. -/
def descriptionPath (resource : Text) : Text :=
  "descriptions/" ++ descriptionModule resource ++ ".ts"

/-- The files of a node. Of two resources with one description file the later one counts. -/
def filesOf (m : NodeModel) : Except Fault (List File) := do
  let name := Naming.pascal m.service.serviceName
  let dispatch ← dispatchLines (helperOf m.service) true m.resources
  let descriptions ← m.resources.mapM fun r => do
    return (descriptionPath r.1, fileText (← descriptionFile r.1 r.2))
  let main : List File :=
    [(name ++ ".imports.ts", fileText (importsFile m)),
      (name ++ ".execute.ts", fileText dispatch),
      ("descriptions/index.ts", fileText (indexFile m))]
  return Entries.ofList (main ++ descriptions)

end NodeForge.Source
