import NodeForge.Node.Basic
import NodeForge.Node.Checked

/-!
# The node model as a document

`dump` writes each part of the model as a mapping, under the names that the node templates expect,
and `read?` reads such a mapping back. On reading, a field may also come under its plain name; the
wire name counts where both are there. Fields that have a default may be left out, and fields the
model does not know are passed over. A field that is null in the model is left out of its dump, a
null inside a schema stays.
-/

namespace NodeForge

namespace Wire

/-! ### Fields -/

/-- The names of a field: the one on the wire and the plain one. -/
structure Key where
  wire : Text
  plain : Text

/-- A field that goes by one name only. -/
def Key.same (name : Text) : Key := ⟨name, name⟩

/-- What a field holds, with the name under which it came. -/
def find? (key : Key) (fields : Fields) : Option (Text × Value) :=
  match Fields.get? key.wire fields with
  | some v => some (key.wire, v)
  | none => (Fields.get? key.plain fields).map fun v => (key.plain, v)

/-- Reads a field that has to be there. -/
def need {α : Type} (key : Key) (check : Value → Checked α) (fields : Fields) : Checked α :=
  match find? key fields with
  | some (name, v) => (check v).under name
  | none => .bad [⟨[key.wire], .missing⟩]

/-- Reads a field that may be left out. -/
def may {α : Type} (key : Key) (other : α) (check : Value → Checked α) (fields : Fields) :
    Checked α :=
  match find? key fields with
  | some (name, v) => (check v).under name
  | none => .good other

/-! ### Values -/

/-- A text, also as the bytes of its UTF-8 form. -/
def checkText : Value → Checked Text
  | .str s => .good s
  | .scalar (.bytes bs) => .ofOption .notUnicode ((String.fromUTF8? ⟨bs.toArray⟩).map Text.ofString)
  | _ => .misfit .notText

/-- A text or null. -/
def orNull {α : Type} (check : Value → Checked α) (v : Value) : Checked (Option α) :=
  match v with
  | .null => .good none
  | v => some <$> check v

/-- A text that is compared with others, which cannot be done where it holds half a pair. -/
def checkWord {α : Type} (m : Misfit) (ofText? : Text → Option α) (s : Text) : Checked α :=
  if s.hasHalf then .misfit .notUnicode else .ofOption m (ofText? s)

/-- One of a few texts. -/
def checkName {α : Type} (ofText? : Text → Option α) : Value → Checked α
  | .str s => checkWord .notAllowed ofText? s
  | _ => .misfit .notAllowed

/-- The texts that stand for a truth value, in small letters. -/
def truthTexts : List (Text × Bool) :=
  [("0", false), ("f", false), ("n", false), ("no", false), ("off", false), ("false", false),
    ("1", true), ("t", true), ("y", true), ("on", true), ("yes", true), ("true", true)]

/-- A whole number as a truth value. One that needs more than 64 bits is not even taken for a truth
value. -/
def truthOfWhole (i : Int) : Checked Bool :=
  let bound : Int := Binary64.twoPow 63
  if i = 0 then .good false
  else if i = 1 then .good true
  else if -bound ≤ i ∧ i < bound then .misfit .unreadableTruthValue
  else .misfit .notTruthValue

/-- A floating-point number as a truth value: a whole number within 64 bits, of which the least one
is left out. -/
def truthOfReal (x : Float) : Checked Bool :=
  match (Scalar.float x).place? with
  | some (.at n d) =>
    if n % d = 0 ∧ -(Binary64.twoPow 63 : Int) < n / d then truthOfWhole (n / d)
    else .misfit .notTruthValue
  | _ => .misfit .notTruthValue

/-- A truth value, also as 0 or 1 or as one of a few words in any letter case. A number with a
fraction is not even taken for a truth value. -/
def checkTruth : Value → Checked Bool
  | .bool b => .good b
  | .str s =>
    checkWord .unreadableTruthValue
      (fun s => truthTexts.lookup (s.map (Sign.mapChar Char.toLower))) s
  | .int i => truthOfWhole i
  | .float x => truthOfReal x
  | _ => .misfit .notTruthValue

/-- A mapping. -/
def checkFields (v : Value) : Checked Fields := .ofOption .notMapping v.fields?

/-- A list of values of one kind. -/
def checkList {α : Type} (check : Value → Checked α) : Value → Checked (List α)
  | .list xs =>
    Checked.all (fun (x, i) => (check x).under (Numeral.ofNat i)) xs.zipIdx
  | _ => .misfit .notList

/-- A text in a step: each half of a pair has the three bytes that it would take, and none of them
is a character. -/
def stepText (text : Text) : Text :=
  text.flatMap fun s => if s.isHalf then Text.repeated '\ufffd' 3 else [s]

/-- The step to what stands under a key: a text or a whole number as it is, with `false` and `true`
as 0 and 1, all else as it is shown. -/
def keyStep : Scalar → Text
  | .str s => stepText s
  | .bool b => if b then "1" else "0"
  | k => if k.isShowable then k.quoted else "<unprintable int object>"

/-- A key of a mapping from texts. -/
def checkKey (k : Scalar) : Checked Text :=
  ((checkText (.scalar k)).under "[key]").under (keyStep k)

/-- A mapping from texts to values of one kind. -/
def checkEntries {α : Type} (check : Value → Checked α) : Value → Checked (List (Text × α))
  | .map es =>
    Checked.all (fun (k, v) => Prod.mk <$> checkKey k <*> (check v).under (keyStep k)) es
  | _ => .misfit .notMapping

/-- A part of the model, read from the fields of a mapping. -/
def checkModel {α : Type} (check : Fields → Checked α) : Value → Checked α
  | .map es => check es
  | _ => .misfit .notModel

/-- An example value: a text or a number. A truth value counts as 0 or 1. -/
def checkExample : Value → Checked Example
  | .str s => .good (.text s)
  | .int i => .good (.whole i)
  | .float x => .good (.real x)
  | .scalar (.noNumber which) => .good (.noNumber which)
  | .bool b => .good (.whole (if b then 1 else 0))
  | _ => .bad [⟨["str"], .notText⟩, ⟨["int"], .notInteger⟩, ⟨["float"], .notNumber⟩]

/-! ### Dumping -/

/-- A field of a dump that is left out when it is null. -/
def optional (name : Text) : Option Value → Record
  | some v => [(name, v)]
  | none => []

end Wire

open Wire

/-! ### Examples and parameters -/

/-- An example as a value. -/
def Example.dump : Example → Value
  | .text s => .str s
  | .whole i => .int i
  | .real x => .float x
  | .noNumber which => .scalar (.noNumber which)

/-- A parameter as a document. -/
def Parameter.dump (p : Parameter) : Value :=
  .record <|
    ([("in", .str p.location.text), ("name", .str p.name), ("required", .bool p.required),
      ("schema", .map p.schema)] : Record) ++
    optional "description" (p.description.map Value.str) ++
    optional "example" (p.exampleValue.map Example.dump)

/-- Reads a parameter from its fields. -/
def Parameter.ofFields (fields : Fields) : Checked Parameter :=
  Parameter.mk <$> need ⟨"in", "location"⟩ (checkName Location.ofText?) fields
    <*> need (.same "name") checkText fields
    <*> may (.same "required") false checkTruth fields
    <*> may ⟨"schema", "schema_"⟩ [] checkFields fields
    <*> may (.same "description") none (orNull checkText) fields
    <*> may (.same "example") none (orNull checkExample) fields

/-- Reads a parameter. -/
def Parameter.read? : Value → Checked Parameter := checkModel ofFields

/-! ### Bodies and groups -/

/-- A body as a document. -/
def RequestBody.dump (b : RequestBody) : Value :=
  .record <|
    ([("name", .str b.name.text), ("required", .bool b.required)] : Record) ++
    optional "description" (b.description.map Value.str) ++
    ([("content", .record (b.content.map fun e => (e.1, .map e.2)))] : Record)

/-- Reads a body from its fields. -/
def RequestBody.ofFields (fields : Fields) : Checked RequestBody :=
  RequestBody.mk <$> need (.same "name") (checkName GroupName.ofText?) fields
    <*> need (.same "required") checkTruth fields
    <*> may (.same "description") none (orNull checkText) fields
    <*> may (.same "content") [] (checkEntries checkFields) fields

/-- Reads a body. -/
def RequestBody.read? : Value → Checked RequestBody := checkModel ofFields

/-- The kind of control that a group of fields is. -/
def FieldGroup.kind : Text := "collection"

/-- A group as a document. -/
def FieldGroup.dump (g : FieldGroup) : Value :=
  .record
    [("name", .str g.name.text), ("type", .str kind), ("description", .str g.description),
      ("default", .map g.default), ("options", .list (g.options.map Parameter.dump))]

/-- Reads a group from its fields; its kind can only be the one there is. -/
def FieldGroup.ofFields (fields : Fields) : Checked FieldGroup :=
  (fun name (_ : Unit) => FieldGroup.mk name)
    <$> need (.same "name") (checkName GroupName.ofText?) fields
    <*> may (.same "type") () (checkName fun s => if s = kind then some () else none) fields
    <*> may (.same "description") [] checkText fields
    <*> may (.same "default") [] checkFields fields
    <*> may (.same "options") [] (checkList Parameter.read?) fields

/-- Reads a group. -/
def FieldGroup.read? : Value → Checked FieldGroup := checkModel ofFields

/-! ### Operations -/

/-- An operation as a document. -/
def Operation.dump (o : Operation) : Value :=
  .record <|
    ([("endpoint", .str o.endpoint), ("requestMethod", .str o.requestMethod),
      ("operationId", .str o.operationId)] : Record) ++
    optional "description" (o.description.map Value.str) ++
    optional "summary" (o.summary.map Value.str) ++
    optional "operationUrl" (o.operationUrl.map Value.str) ++
    ([("parameters", .list (o.parameters.map Parameter.dump)),
      ("requestBody", .list (o.requestBody.map RequestBody.dump))] : Record) ++
    optional "additionalFields" (o.additionalFields.map FieldGroup.dump) ++
    optional "updateFields" (o.updateFields.map FieldGroup.dump)

/-- Reads an operation from its fields. -/
def Operation.ofFields (fields : Fields) : Checked Operation :=
  Operation.mk <$> need (.same "endpoint") checkText fields
    <*> need ⟨"requestMethod", "request_method"⟩ checkText fields
    <*> need ⟨"operationId", "operation_id"⟩ checkText fields
    <*> may (.same "description") none (orNull checkText) fields
    <*> may (.same "summary") none (orNull checkText) fields
    <*> may ⟨"operationUrl", "operation_url"⟩ none (orNull checkText) fields
    <*> may (.same "parameters") [] (checkList Parameter.read?) fields
    <*> may ⟨"requestBody", "request_body"⟩ [] (checkList RequestBody.read?) fields
    <*> may ⟨"additionalFields", "additional_fields"⟩ none (orNull FieldGroup.read?) fields
    <*> may ⟨"updateFields", "update_fields"⟩ none (orNull FieldGroup.read?) fields

/-- Reads an operation. -/
def Operation.read? : Value → Checked Operation := checkModel ofFields

/-! ### Services and node models -/

/-- A service as a document. -/
def Service.dump (s : Service) : Value :=
  .record
    [("serviceName", .str s.serviceName), ("authType", .str s.authType.text),
      ("nodeColor", .str s.nodeColor), ("apiUrl", .str s.apiUrl)]

/-- Reads a service from its fields. -/
def Service.ofFields (fields : Fields) : Checked Service :=
  Service.mk <$> need ⟨"serviceName", "service_name"⟩ checkText fields
    <*> may ⟨"authType", "auth_type"⟩ .anonymous (checkName AuthType.ofText?) fields
    <*> may ⟨"nodeColor", "node_color"⟩ defaultNodeColor checkText fields
    <*> may ⟨"apiUrl", "api_url"⟩ [] checkText fields

/-- Reads a service. -/
def Service.read? : Value → Checked Service := checkModel ofFields

/-- A node model as a document. -/
def NodeModel.dump (m : NodeModel) : Value :=
  .record
    [("metaParams", m.service.dump),
      ("mainParams", .record (m.resources.map fun r => (r.1, .list (r.2.map Operation.dump))))]

/-- Reads a node model from its fields. -/
def NodeModel.ofFields (fields : Fields) : Checked NodeModel :=
  NodeModel.mk <$> need ⟨"metaParams", "meta_params"⟩ Service.read? fields
    <*> may ⟨"mainParams", "main_params"⟩ [] (checkEntries (checkList Operation.read?)) fields

/-- Reads a node model. -/
def NodeModel.read? : Value → Checked NodeModel := checkModel ofFields

end NodeForge
