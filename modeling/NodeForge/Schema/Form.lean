import NodeForge.Failure
import NodeForge.Naming.Words
import NodeForge.Schema.Compose

/-!
# Schemas as input forms

The properties of a schema become the fields of a form. `toForm` gives them their camel-case
names, drops those that do not travel in the direction of the request, sorts them by name, and
turns every `enum` into a choice of options. Two visible properties whose names fold into the same
camel-case name cannot both become fields, so such a schema is refused.
-/

namespace NodeForge.Schema

/-- The schema with an `enum` turned into a choice of options. -/
def enumToOptions (schema : Fields) : Except Fault Fields :=
  match Fields.get? "enum" schema with
  | none => .ok schema
  | some choices => do
    let options ← choices.members
    return Fields.put "options" (.list options)
      (Fields.put "type" (.str "options") (Entries.without (.str "enum") schema))

/-- Whether a request method is `GET`, in any letter case. -/
def isGet (method : Text) : Bool := Text.upper method == "GET"

/-- Whether a property travels with a request: a read-only one only with `GET`, a write-only one
with every other method. -/
def isVisible (method : Text) (property : Fields) : Bool :=
  !((Fields.get "readOnly" property).truthy && !isGet method) &&
    !((Fields.get "writeOnly" property).truthy && isGet method)

/-- Whether a property of whatever kind travels with a request. -/
def isShown (method : Text) : Value → Bool
  | .map es => isVisible method es
  | _ => true

/-- The name of the field for a property. -/
def fieldName (name : Scalar) : Except Fault Text := Naming.field <$> name.asText .wrongKind

/-- A field of a form, with the name of the property that it came from. -/
structure FormField where
  name : Text
  origin : Text
  schema : Value

/-- The fields as the properties of a schema, sorted by name. -/
def sortedProperties (fields : List FormField) : Fields :=
  (fields.mergeSort fun a b => Text.atMost a.name b.name).map fun f => (.str f.name, f.schema)

/-- The names of the mandatory fields: the folded names of a list of properties, each once, as far
as there are such fields. -/
def requiredNames (fields : List FormField) (required : List Value) :
    Except Fault (List Text) := do
  let names ← required.mapM fun n => Naming.field <$> n.asText .wrongKind
  return (Entries.distinct names).filter fun n => fields.any fun f => f.name == n

/-- What the entries of a schema contribute to its form: the fields for its properties and the
form of its items, where these are mappings. -/
structure FormParts where
  properties : Option (Except Failure (List FormField))
  items : Option (Except Failure Fields)

/-- Puts a form together from the entries of a schema and what they contribute. -/
def FormParts.assemble (schema : Fields) (parts : FormParts) : Except Failure Fields := do
  let form ← enumToOptions schema
  let form ←
    match parts.properties with
    | none => pure form
    | some properties => do
      let fields ← properties
      let form := Fields.put "properties" (.map (sortedProperties fields)) form
      match Fields.get? "required" schema with
      | some (.list required) => do
        let names ← requiredNames fields required
        pure (Fields.put "required" (Value.texts names) form)
      | _ => pure form
  match parts.items with
  | none => return form
  | some items => return Fields.put "items" (.map (← items)) form

mutual

/-- What the entries of a schema contribute to its form. -/
def formParts (method : Text) : List (Scalar × Value) → FormParts
  | [] => ⟨none, none⟩
  | (k, v) :: rest =>
    let parts := formParts method rest
    match Keyword.ofKey? k, v with
    | some .properties, .map es => { parts with properties := some (formFields method [] es) }
    | some .items, .map es => { parts with items := some ((formParts method es).assemble es) }
    | _, _ => parts

/-- The fields for the visible properties, beside the names that are in use already. -/
def formFields (method : Text) (taken : List (Text × Text)) :
    List (Scalar × Value) → Except Failure (List FormField)
  | [] => .ok []
  | (k, v) :: rest =>
    if !isShown method v then formFields method taken rest
    else do
      let name ← fieldName k
      let origin ← k.asText .wrongKind
      match taken.lookup name with
      | some first => failSpec (.nameClash first origin name)
      | none =>
        let schema ← formOfProperty method v
        let fields ← formFields method ((name, origin) :: taken) rest
        return ⟨name, origin, schema⟩ :: fields

/-- The form of a property; what is no mapping stays. -/
def formOfProperty (method : Text) : Value → Except Failure Value
  | .map es => Value.map <$> (formParts method es).assemble es
  | v => .ok v

end

/-- The form of a schema. -/
def formOfFields (method : Text) (schema : Fields) : Except Failure Fields :=
  (formParts method schema).assemble schema

/-- The form of a value that should be a schema. What is no mapping has none: it may not even be
possible to look for an `enum` in it or to read it as entries, and in the end it has no
properties. -/
def toForm (method : Text) : Value → Except Failure Fields
  | .map es => formOfFields method es
  | v => do
    if ← v.holds "enum" then throw (.fault .noSuchMember)
    let _ ← v.asFields Value.opened
    throw (.fault .noSuchMember)

/-! ### Mandatory and optional fields -/

/-- The properties of a schema, those that it requires and the others. -/
def splitRequired (schema : Value) : Except Fault (Fields × Fields) := do
  let properties := (← schema.field "properties").orElse (.map [])
  let required ← ((← schema.field "required").orElse (.list [])).members
  let names ← required.mapM Value.asMember
  let fields ← properties.fields
  return fields.partition fun e => names.any fun n => n == some e.1

end NodeForge.Schema
