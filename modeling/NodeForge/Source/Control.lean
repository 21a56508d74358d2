import NodeForge.Document.Access
import NodeForge.Text.Prose

/-!
# Controls for schemas

How a schema is entered and carried in generated code: the type of its control, the literal of its
default value, and the type of the value that a control delivers.
-/

namespace NodeForge.Source

/-! ### Control types -/

/-- Whether a field is about a date: its format says so, or its name. -/
def isDateLike (name : Scalar) (schema : Fields) : Except Fault Bool := do
  if (Fields.get "format" schema).isText "date-time" then return true
  else return Text.contains "date" (Text.lower (← name.asText .noSuchMember))

/-- The type of the control for a schema, where `ofItems` is the one for its items, if these have
a type. -/
def controlTypeFrom (name : Scalar) (schema : Fields) (ofItems : Option (Except Fault Value)) :
    Except Fault Value := do
  let type := (Fields.get? "type" schema).getD (.str "string")
  let hasProperties := (Fields.get "properties" schema).truthy
  if type.isText "integer" then return .str "number"
  else if ← isDateLike name schema then return .str "dateTime"
  else if type.isText "object" then
    return .str <|
      if hasProperties then if name == .str "query" then "collection" else "fixedCollection"
      else "json"
  else if type.isText "array" then
    match ofItems with
    | some control => control
    | none => return type
  else return type

mutual

/-- The type of the control for a schema that has a type. -/
def typedControl (name : Scalar) : Value → Option (Except Fault Value)
  | .map es =>
    if (Fields.get "type" es).truthy then some (controlTypeFrom name es (itemControl name es))
    else none
  | _ => none

/-- The type of the control for the items of a schema, if these have a type. -/
def itemControl (name : Scalar) : List (Scalar × Value) → Option (Except Fault Value)
  | [] => none
  | (k, v) :: rest => if k == .str "items" then typedControl name v else itemControl name rest

end

/-- The type of the control for a schema. A list is entered by the control for its items, and any
type that is not known stands for itself. -/
def controlType (name : Scalar) : Value → Except Fault Value
  | .map es => controlTypeFrom name es (itemControl name es)
  | _ => .error .noSuchMember

/-! ### Default values -/

/-- A text between single quotes. -/
def singleQuoted (text : Text) : Text := "'" ++ text ++ "'"

/-- A value as a literal without quotes. -/
def bareLiteral (v : Value) : Text :=
  match v with
  | .bool b => if b then "true" else "false"
  | v => v.text

/-- Whether a type is one of the given ones. -/
def isOneOf (types : List Text) (type : Value) : Bool := types.any fun t => type.isText t

/-- The literal of a default that is declared, if its type has one. -/
def declaredDefault (type default : Value) : Option Text :=
  if !default.truthy then none
  else if default.text?.isSome && isOneOf ["number", "integer"] type then some "0"
  else if isOneOf ["boolean", "number", "integer"] type then some (bareLiteral default)
  else if isOneOf ["string", "options"] type then some (singleQuoted default.text)
  else none

/-- The literal of the default of a type without a declared one. -/
def typeDefault (schema : Fields) (type : Value) : Except Fault Text := do
  let hasProperties := (Fields.get "properties" schema).truthy
  let options := Fields.get "options" schema
  if isOneOf ["number", "integer"] type then return "0"
  else if type.isText "boolean" then return "false"
  else if type.isText "options" && options.truthy then
    return singleQuoted (← options.first).text
  else if type.isText "object" && hasProperties then return "\x7b\x7d"
  else if type.isText "array" then return "[]"
  else return "''"

/-- The literal of the default value of a schema. -/
def defaultLiteral (schema : Fields) : Except Fault Text :=
  let type := Fields.get "type" schema
  match declaredDefault type (Fields.get "default" schema) with
  | some literal => .ok literal
  | none => typeDefault schema type

/-! ### Bounds and value types -/

/-- The bounds of a number, if both are given. -/
def bounds? (schema : Fields) : Option (Value × Value) :=
  match Fields.get "minimum" schema, Fields.get "maximum" schema with
  | .null, _ | _, .null => none
  | low, high => some (low, high)

/-- The type of the value that a control for a schema delivers. -/
def valueType (schema : Value) : Except Fault Text := do
  let type ← schema.field "type"
  if isOneOf ["integer", "number"] type then return "number"
  else if type.isText "boolean" then return "boolean"
  else if type.isText "object" then return "IDataObject"
  else if type.isText "array" then
    let items := (← schema.field "items").orElse (.map [])
    return if isOneOf ["string", "options"] (← items.field "type") then "string[]"
      else "IDataObject[]"
  else return "string"

end NodeForge.Source
