import NodeForge.Node.Basic
import NodeForge.Source.Condition
import NodeForge.Source.Control
import NodeForge.Source.Title

/-!
# Field blocks

Every field of a node is declared by a block of code. A block is built as a value first: what it
is called, how it is entered, what it holds. `FieldBlock.lines` writes it out.

An object with properties becomes a fixed collection with one nested block for each property, and
every other schema a single field. Groups of optional fields become collections.
-/

namespace NodeForge.Source

/-- One choice of an options field. -/
structure Choice where
  name : Text
  value : Text
deriving Repr, DecidableEq

/-- A field that is entered by one control. -/
structure SingleField where
  name : Text
  title : Text
  type : Text
  /-- The choices, for a field of options. -/
  choices : Option (List Choice)
  bounds : Option (Text × Text)
  /-- Whether several values can be entered. -/
  multiple : Bool
  default : Text
  description : Option Text
  required : Bool
  /-- The lines that say when the field is shown. -/
  shown : Lines
deriving Repr, DecidableEq

/-- The declaration of a field. -/
inductive FieldBlock where
  | single (field : SingleField)
  /-- An object whose properties are entered as nested fields. -/
  | fixedCollection (name title nestedName : Text) (description : Option Text)
      (values : List FieldBlock) (required : Bool) (shown : Lines)
  /-- A group of optional fields. -/
  | collection (name title prompt : Text) (shown : Lines) (options : List FieldBlock)
  /-- The number of results to return. -/
  | limit (shown : Lines)

namespace FieldBlock

/-! ### Views -/

/-- The name under which the value of a field is read. -/
def name : FieldBlock → Text
  | .single f => f.name
  | .fixedCollection name .. => name
  | .collection name .. => name
  | .limit _ => "limit"

/-- The type of the control of a field. -/
def type : FieldBlock → Text
  | .single f => f.type
  | .fixedCollection .. => "fixedCollection"
  | .collection .. => "collection"
  | .limit _ => "number"

/-- The lines that say when a field is shown. -/
def shown : FieldBlock → Lines
  | .single f => f.shown
  | .fixedCollection _ _ _ _ _ _ shown => shown
  | .collection _ _ _ shown _ => shown
  | .limit shown => shown

/-- The fields inside a field. -/
def nested : FieldBlock → List FieldBlock
  | .single _ | .limit _ => []
  | .fixedCollection _ _ _ _ values _ _ => values
  | .collection _ _ _ _ options => options

/-! ### Writing -/

/-- A line that sets a key to a quoted text. -/
def quotedLine (key text : Text) : Text := key ++ ": '" ++ text ++ "',"

/-- The description line of a field that has one. -/
def descriptionLines (description : Option Text) : Lines :=
  description.toList.map (quotedLine "description")

/-- The lines that end a block. -/
def endLines (required : Bool) (shown : Lines) : Lines :=
  code [if required then ["required: true,"] else [], shown, ["\x7d,"]]

/-- The line of a choice. -/
def choiceLine (c : Choice) : Text :=
  "\x7b name: '" ++ c.name ++ "', value: '" ++ c.value ++ "' \x7d,"

/-- The lines of the bounds and of whether several values can be entered. -/
def typeOptionLines (bounds : Option (Text × Text)) (multiple : Bool) : Lines :=
  if bounds.isNone && !multiple then []
  else
    code [
      ["typeOptions: \x7b"],
      bounds.toList.flatMap fun b => ["minValue: " ++ b.1 ++ ",", "maxValue: " ++ b.2 ++ ","],
      if multiple then ["multipleValues: true,"] else [],
      ["\x7d,"]]

/-- The lines of the choices of a field. -/
def choiceLines (choices : List Choice) : Lines :=
  code [["options: ["], choices.map choiceLine, ["],"]]

/-- The lines of a field that is entered by one control. -/
def singleLines (f : SingleField) : Lines :=
  code [
    ["\x7b", quotedLine "displayName" f.title, quotedLine "name" f.name,
      quotedLine "type" f.type],
    f.choices.toList.flatMap choiceLines,
    typeOptionLines f.bounds f.multiple,
    ["default: " ++ f.default ++ ","],
    descriptionLines f.description,
    endLines f.required f.shown]

/-- The lines of the field that limits the number of results. -/
def limitLines (shown : Lines) : Lines :=
  code [
    ["\x7b", "displayName: 'Limit',", "name: 'limit',", "type: 'number',", "default: 50,",
      "description: 'Max number of results to return',", "typeOptions: \x7b", "minValue: 1,",
      "\x7d,"],
    shown, ["\x7d,"]]

mutual

/-- A block as lines of code. -/
def lines : FieldBlock → Lines
  | .single f => singleLines f
  | .fixedCollection name title nestedName description values required shown =>
    code [
      ["\x7b", quotedLine "displayName" title, quotedLine "name" name,
        "placeholder: 'Add " ++ title ++ " Field',", "type: 'fixedCollection',",
        "default: \x7b\x7d,"],
      descriptionLines description,
      ["options: [\x7b", "displayName: '" ++ title ++ " Fields',", quotedLine "name" nestedName,
        "values: ["],
      linesOfAll values, ["]\x7d],"], endLines required shown]
  | .collection name title prompt shown options =>
    code [
      ["\x7b", quotedLine "displayName" title, quotedLine "name" name, "type: 'collection',",
        quotedLine "placeholder" prompt, "default: \x7b\x7d,"],
      shown, ["options: ["], linesOfAll options, ["],", "\x7d,"]]
  | .limit shown => limitLines shown

/-- Blocks as lines of code, one after the other. -/
def linesOfAll : List FieldBlock → Lines
  | [] => []
  | b :: bs => lines b ++ linesOfAll bs

end

/-! ### Building -/

/-- The description of a schema as it stands in code, if it has one. -/
def descriptionIn (schema : Fields) : Except Fault (Option Text) := do
  let description := Fields.get "description" schema
  if description.truthy then
    return some (Prose.forTemplate (← description.asText .wrongKind))
  else return none

/-- An option as a choice. -/
def choiceOf (option : Value) : Choice := ⟨title option.text, option.text⟩

/-- The choices of a schema of options. -/
def choicesIn (schema : Fields) : Except Fault (Option (List Choice)) := do
  if (Fields.get "type" schema).isText "options" then
    let options ← ((Fields.get? "options" schema).getD (.list [])).members
    return some (options.map choiceOf)
  else return none

/-- The field that is entered by one control for a schema. -/
def singleOf (key : Scalar) (required : Bool) (shown : Lines) (schema : Fields) :
    Except Fault SingleField := do
  let control ← controlType key (.map schema)
  let choices ← choicesIn schema
  let default ← defaultLiteral schema
  let description ← descriptionIn schema
  return {
    name := key.text, title := titleOf (.scalar key), type := control.text, choices
    bounds := (bounds? schema).map fun b => (b.1.text, b.2.text)
    multiple := (Fields.get "type" schema).isText "array"
    default, description, required, shown }

/-- Whether a schema is an object with properties. -/
def isObject (schema : Fields) : Bool :=
  (Fields.get "type" schema).isText "object" && (Fields.get "properties" schema).truthy

/-- The block for a schema, where `values` are the blocks for its properties. -/
def ofFields (key : Scalar) (required : Bool) (shown : Lines) (schema : Fields)
    (values : Except Fault (List FieldBlock)) : Except Fault FieldBlock := do
  if isObject schema then
    let description ← descriptionIn schema
    let nestedName := nestedName (← key.asText .wrongKind)
    return .fixedCollection key.text (titleOf (.scalar key)) nestedName description (← values)
      required shown
  else return .single (← singleOf key required shown schema)

mutual

/-- The block for a schema. -/
def ofSchema (key : Scalar) (required : Bool) (shown : Lines) :
    Value → Except Fault FieldBlock
  | .map es => ofFields key required shown es (ofProperties es)
  | _ => .error .noSuchMember

/-- The blocks for the properties of a schema. -/
def ofProperties : List (Scalar × Value) → Except Fault (List FieldBlock)
  | [] => .ok []
  | (k, v) :: rest =>
    if k == .str "properties" then
      match v with
      | .map es => ofEntries es
      | _ => .error .noSuchMember
    else ofProperties rest

/-- The blocks for some properties. -/
def ofEntries : List (Scalar × Value) → Except Fault (List FieldBlock)
  | [] => .ok []
  | (k, v) :: rest => do
    let block ← ofSchema k false [] v
    let blocks ← ofEntries rest
    return block :: blocks

end

/-- The block for a group of optional fields. -/
def ofGroup (title : Text) (properties : Value) (shown : Lines) :
    Except Fault FieldBlock := do
  let options ← ofEntries (← properties.fields)
  return .collection (Naming.camel title) title (prompt title) shown options

/-- The field that asks for all results. -/
def returnAll (shown : Lines) : FieldBlock :=
  .single {
    name := "returnAll", title := "Return All", type := "boolean", choices := none
    bounds := none, multiple := false, default := "false"
    description := some (Text.ofString "Whether to return all results or only up to a given limit")
    required := false, shown }

end FieldBlock

end NodeForge.Source
