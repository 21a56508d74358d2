import NodeForge.Document.Value
import NodeForge.Naming.Words

/-!
# Titles and names in generated code

The names under which things are shown and declared: titles of fields, the names of groups of
nested fields, the names of credentials.
-/

namespace NodeForge.Source

/-- The word `Id` in capitals, any other word as it is. -/
def capitalId (word : Text) : Text := if word == "Id" then "ID" else word

/-- The title of a name: its words capitalized. Points and underscores separate words, and a name
in capitals throughout counts as one in small letters. -/
def title (name : Text) : Text :=
  let base := Text.trim (name.map fun (c : Sign) => if c == '.' || c == '_' then .char ' ' else c)
  let base := if Text.upper base = base then Text.lower base else base
  Text.joined " " ((Naming.words base).map fun w => capitalId (Naming.capitalize w))

/-- The title of a value; what is no text stands as it is. -/
def titleOf (v : Value) : Text :=
  match v with
  | .str s => title s
  | v => v.text

/-- The name of the group of fields inside an object. -/
def nestedName (key : Text) : Text :=
  if Text.contains "_" key then key ++ "_fields" else key ++ "Fields"

/-- The prompt of a control that fields are added with. -/
def prompt (group : Text) : Text :=
  if group == "Filters" then "Add Filter" else "Add Field"

/-- The name of the credentials of a service. -/
def credentialsName (serviceName authType : Text) : Text :=
  Naming.camel serviceName ++ (if authType == "OAuth2" then "OAuth2" else "") ++ "Api"

end NodeForge.Source
