import NodeForge.Node.Wire
import NodeForge.Proofs.Document.Entries
import NodeForge.Proofs.Document.Sameness

/-!
# Dumps are read back

Every part of the node model is dumped as a mapping under fixed names, from which the fields that
are null are left out. Such a mapping is what is `present` of a row of slots, one for each field in
its order, and as no two slots have one name, a field is found in the mapping exactly as it stands in
its slot (`Wire.find?_present`). A field that is left out is not found under its plain name either,
because that is the wire name of no other field.

Each part is therefore read back as it was dumped (`NodeModel.read?_dump`), whatever its schemas
hold: they are taken over as they are, with their nulls and in their order.
-/

namespace NodeForge

namespace Wire

/-! ### What is present -/

/-- The fields of a part of the model: their wire names, with the values of those that are not
null. -/
abbrev Slots := List (Text × Option Value)

/-- The mapping that holds what is present. -/
def present (slots : Slots) : Fields :=
  slots.flatMap fun slot => (optional slot.1 slot.2).map fun e => (.str e.1, e.2)

/-- What the first slot holds comes before all else, if it is the one that is looked for. -/
theorem get?_present_cons (name : Text) (slot : Text × Option Value) (rest : Slots) :
    Fields.get? name (present (slot :: rest)) =
      (if name = slot.1 then slot.2 else none).or (Fields.get? name (present rest)) := by
  obtain ⟨other, v?⟩ := slot
  simp only [Fields.get?, present, List.flatMap_cons, List.lookup_append]
  congr 1
  cases v? with
  | none => simp [optional]
  | some v =>
    by_cases heq : name = other
    · rw [if_pos heq, heq]
      simp [optional]
    · have hbeq : (Scalar.str name == Scalar.str other) = false := by
        rw [Scalar.beq_str, beq_eq_false_iff_ne]
        exact heq
      simp [optional, List.lookup_cons, hbeq, heq]

theorem get?_present_of_not_mem {name : Text} {slots : Slots}
    (h : name ∉ slots.map Prod.fst) : Fields.get? name (present slots) = none := by
  induction slots with
  | nil => rfl
  | cons slot rest ih =>
    rw [List.map_cons, List.mem_cons, not_or] at h
    rw [get?_present_cons, if_neg h.1, ih h.2]
    rfl

/-- A slot is looked up under its name. -/
theorem get?_present {slots : Slots} (hnames : (slots.map Prod.fst).Nodup) {name : Text}
    {v? : Option Value} (hslot : (name, v?) ∈ slots) :
    Fields.get? name (present slots) = v? := by
  induction slots with
  | nil => cases hslot
  | cons slot rest ih =>
    rw [List.map_cons, List.nodup_cons] at hnames
    rw [get?_present_cons]
    rcases List.mem_cons.1 hslot with rfl | hslot
    · rw [if_pos rfl, get?_present_of_not_mem hnames.1, Option.or_none]
    · have hne : name ≠ slot.1 := by
        intro heq
        apply hnames.1
        rw [← heq]
        exact List.mem_map_of_mem hslot
      rw [if_neg hne, ih hnames.2 hslot, Option.none_or]

/-- A field that is present is found under its wire name. -/
theorem find?_present {slots : Slots} (hnames : (slots.map Prod.fst).Nodup) {key : Key} {v : Value}
    (hslot : (key.wire, some v) ∈ slots) : find? key (present slots) = some (key.wire, v) := by
  rw [find?, get?_present hnames hslot]

/-- A field that is left out is not found, if its plain name is not that of another field. -/
theorem find?_present_none {slots : Slots} (hnames : (slots.map Prod.fst).Nodup) {key : Key}
    (hslot : (key.wire, none) ∈ slots)
    (hplain : key.plain = key.wire ∨ key.plain ∉ slots.map Prod.fst) :
    find? key (present slots) = none := by
  have hwire := get?_present hnames hslot
  rw [find?, hwire]
  rcases hplain with heq | hplain
  · rw [heq, hwire]
    rfl
  · rw [get?_present_of_not_mem hplain]
    rfl

section Fields

variable {α : Type} {slots : Slots} {key : Key} {check : Value → Checked α} {dump : α → Value}

theorem need_present (hnames : (slots.map Prod.fst).Nodup) {v : Value} {a : α}
    (hslot : (key.wire, some v) ∈ slots) (hcheck : check v = .good a) :
    need key check (present slots) = .good a := by
  rw [need, find?_present hnames hslot]
  show (check v).under key.wire = .good a
  rw [hcheck, Checked.under_good]

theorem may_present (hnames : (slots.map Prod.fst).Nodup) {v : Value} {a other : α}
    (hslot : (key.wire, some v) ∈ slots) (hcheck : check v = .good a) :
    may key other check (present slots) = .good a := by
  rw [may, find?_present hnames hslot]
  show (check v).under key.wire = .good a
  rw [hcheck, Checked.under_good]

/-- A field that may be null is read back, whether it is left out or not. Its plain name must not be
that of another field, under which something else could be found in its place. -/
theorem may_orNull_present (hnames : (slots.map Prod.fst).Nodup) {a? : Option α}
    (hslot : (key.wire, a?.map dump) ∈ slots)
    (hplain : key.plain = key.wire ∨ key.plain ∉ slots.map Prod.fst)
    (hnull : ∀ a, dump a ≠ .null) (hcheck : ∀ a, check (dump a) = .good a) :
    may key none (orNull check) (present slots) = .good a? := by
  cases a? with
  | some a =>
    have hgood : orNull check (dump a) = .good (some a) := by
      rw [orNull, hcheck a, Checked.map_good]
      exact hnull a
    exact may_present hnames hslot hgood
  | none =>
    rw [may, find?_present_none hnames hslot hplain]

end Fields

/-! ### Values -/

section Values

variable {α : Type} {check : Value → Checked α} {dump : α → Value}

theorem checkText_str (s : Text) : checkText (.str s) = .good s := rfl

theorem checkTruth_bool (b : Bool) : checkTruth (.bool b) = .good b := rfl

theorem checkFields_map (fields : Fields) : checkFields (.map fields) = .good fields := rfl

/-- A row is read back if its members are. -/
theorem checkList_map (hcheck : ∀ a, check (dump a) = .good a) (as : List α) :
    checkList check (.list (as.map dump)) = .good as := by
  rw [checkList]
  apply Checked.all_good
  have hmember : ∀ entry : α × Nat,
      (check (dump entry.1)).under (Numeral.ofNat entry.2) = .good entry.1 := by
    intro entry
    rw [hcheck, Checked.under_good]
  calc (as.map dump).zipIdx.map (fun entry => (check entry.1).under (Numeral.ofNat entry.2))
      = as.zipIdx.map fun entry => (check (dump entry.1)).under (Numeral.ofNat entry.2) := by
        rw [List.zipIdx_map, List.map_map]
        rfl
    _ = as.zipIdx.map fun entry => .good entry.1 := by simp only [hmember]
    _ = as.map .good := by
        conv_rhs => rw [← List.zipIdx_map_fst 0 as, List.map_map]
        rfl

/-- The entries of a mapping from texts are read back in their order if their values are. -/
theorem checkEntries_map (hcheck : ∀ a, check (dump a) = .good a) (entries : List (Text × α)) :
    checkEntries check (.record (entries.map fun e => (e.1, dump e.2))) = .good entries := by
  rw [Value.record, checkEntries]
  apply Checked.all_good
  rw [List.map_map, List.map_map]
  apply List.map_congr_left
  intro e _
  have hkey : checkKey (.str e.1) = .good e.1 := rfl
  show Prod.mk <$> checkKey (.str e.1) <*> (check (dump e.2)).under (keyStep (.str e.1)) = .good e
  rw [hkey, hcheck, Checked.under_good, Checked.map_good, Checked.seq_good]

/-- A text is read back from among a few if it is the name of one of them and can be compared. -/
theorem checkName_of_eq {ofText? : Text → Option α} {name : Text} {a : α}
    (hhalf : name.hasHalf = false) (hname : ofText? name = some a) :
    checkName ofText? (.str name) = .good a := by
  rw [checkName, checkWord, hhalf, hname]
  rfl

theorem checkName_location (l : Location) :
    checkName Location.ofText? (.str l.text) = .good l :=
  checkName_of_eq (by cases l <;> rfl) l.ofText?_text

theorem checkName_authType (a : AuthType) :
    checkName AuthType.ofText? (.str a.text) = .good a :=
  checkName_of_eq (by cases a <;> rfl) a.ofText?_text

theorem checkName_groupName (g : GroupName) :
    checkName GroupName.ofText? (.str g.text) = .good g :=
  checkName_of_eq (by cases g <;> rfl) g.ofText?_text

theorem checkExample_dump (e : Example) : checkExample e.dump = .good e := by
  cases e <;> rfl

end Values

end Wire

open Wire

/-! ### Parameters -/

theorem str_ne_null (s : Text) : Value.str s ≠ .null := by
  intro h
  cases h

theorem Example.dump_ne_null (e : Example) : e.dump ≠ .null := by
  cases e <;> simp [Example.dump]

/-- The fields of a parameter. -/
def Parameter.slots (p : Parameter) : Slots :=
  [("in", some (.str p.location.text)), ("name", some (.str p.name)),
    ("required", some (.bool p.required)), ("schema", some (.map p.schema)),
    ("description", p.description.map Value.str), ("example", p.exampleValue.map Example.dump)]

theorem Parameter.dump_eq (p : Parameter) : p.dump = .map (present p.slots) := by
  simp [Parameter.dump, Value.record, present, Parameter.slots, Wire.optional]

theorem Parameter.read?_of_dump (p : Parameter) : Parameter.read? p.dump = .good p := by
  have hnames : (p.slots.map Prod.fst).Nodup := by
    show (["in", "name", "required", "schema", "description", "example"] : List Text).Nodup
    decide
  have hlocation : need ⟨"in", "location"⟩ (checkName Location.ofText?) (present p.slots) =
      .good p.location :=
    need_present hnames (by simp [slots]) (checkName_location p.location)
  have hname : need (.same "name") checkText (present p.slots) = .good p.name :=
    need_present hnames (by simp [slots, Key.same]) (checkText_str p.name)
  have hrequired : may (.same "required") false checkTruth (present p.slots) = .good p.required :=
    may_present hnames (by simp [slots, Key.same]) (checkTruth_bool p.required)
  have hschema : may ⟨"schema", "schema_"⟩ [] checkFields (present p.slots) = .good p.schema :=
    may_present hnames (by simp [slots]) (checkFields_map p.schema)
  have hdescription : may (.same "description") none (orNull checkText) (present p.slots) =
      .good p.description :=
    may_orNull_present hnames (by simp [slots, Key.same]) (.inl rfl) str_ne_null checkText_str
  have hexample : may (.same "example") none (orNull checkExample) (present p.slots) =
      .good p.exampleValue :=
    may_orNull_present hnames (by simp [slots, Key.same]) (.inl rfl) Example.dump_ne_null
      checkExample_dump
  rw [dump_eq, read?, checkModel, ofFields, hlocation, hname, hrequired, hschema, hdescription,
    hexample]
  rfl

/-! ### Bodies and groups -/

/-- The fields of a body. -/
def RequestBody.slots (b : RequestBody) : Slots :=
  [("name", some (.str b.name.text)), ("required", some (.bool b.required)),
    ("description", b.description.map Value.str),
    ("content", some (.record (b.content.map fun e => (e.1, .map e.2))))]

theorem RequestBody.dump_eq (b : RequestBody) : b.dump = .map (present b.slots) := by
  simp [RequestBody.dump, Value.record, present, RequestBody.slots, Wire.optional]

theorem RequestBody.read?_of_dump (b : RequestBody) : RequestBody.read? b.dump = .good b := by
  have hnames : (b.slots.map Prod.fst).Nodup := by
    show (["name", "required", "description", "content"] : List Text).Nodup
    decide
  have hname : need (.same "name") (checkName GroupName.ofText?) (present b.slots) =
      .good b.name :=
    need_present hnames (by simp [slots, Key.same]) (checkName_groupName b.name)
  have hrequired : need (.same "required") checkTruth (present b.slots) = .good b.required :=
    need_present hnames (by simp [slots, Key.same]) (checkTruth_bool b.required)
  have hdescription : may (.same "description") none (orNull checkText) (present b.slots) =
      .good b.description :=
    may_orNull_present hnames (by simp [slots, Key.same]) (.inl rfl) str_ne_null checkText_str
  have hcontent : may (.same "content") [] (checkEntries checkFields) (present b.slots) =
      .good b.content :=
    may_present hnames (by simp [slots, Key.same]) (checkEntries_map checkFields_map b.content)
  rw [dump_eq, read?, checkModel, ofFields, hname, hrequired, hdescription, hcontent]
  rfl

/-- The fields of a group. -/
def FieldGroup.slots (g : FieldGroup) : Slots :=
  [("name", some (.str g.name.text)), ("type", some (.str kind)),
    ("description", some (.str g.description)), ("default", some (.map g.default)),
    ("options", some (.list (g.options.map Parameter.dump)))]

theorem FieldGroup.dump_eq (g : FieldGroup) : g.dump = .map (present g.slots) := rfl

theorem FieldGroup.dump_ne_null (g : FieldGroup) : g.dump ≠ .null := by
  rw [dump_eq]
  intro h
  cases h

theorem FieldGroup.read?_of_dump (g : FieldGroup) : FieldGroup.read? g.dump = .good g := by
  have hnames : (g.slots.map Prod.fst).Nodup := by
    show (["name", "type", "description", "default", "options"] : List Text).Nodup
    decide
  have hname : need (.same "name") (checkName GroupName.ofText?) (present g.slots) =
      .good g.name :=
    need_present hnames (by simp [slots, Key.same]) (checkName_groupName g.name)
  have hkind : checkName (fun s => if s = kind then some () else none) (.str kind) = .good () :=
    checkName_of_eq (by decide) (by simp)
  have htype : may (.same "type") () (checkName fun s => if s = kind then some () else none)
      (present g.slots) = .good () :=
    may_present hnames (by simp [slots, Key.same]) hkind
  have hdescription : may (.same "description") [] checkText (present g.slots) =
      .good g.description :=
    may_present hnames (by simp [slots, Key.same]) (checkText_str g.description)
  have hdefault : may (.same "default") [] checkFields (present g.slots) = .good g.default :=
    may_present hnames (by simp [slots, Key.same]) (checkFields_map g.default)
  have hoptions : may (.same "options") [] (checkList Parameter.read?) (present g.slots) =
      .good g.options :=
    may_present hnames (by simp [slots, Key.same])
      (checkList_map Parameter.read?_of_dump g.options)
  rw [dump_eq, read?, checkModel, ofFields, hname, htype, hdescription, hdefault, hoptions]
  rfl

/-! ### Operations -/

/-- The fields of an operation. -/
def Operation.slots (o : Operation) : Slots :=
  [("endpoint", some (.str o.endpoint)), ("requestMethod", some (.str o.requestMethod)),
    ("operationId", some (.str o.operationId)), ("description", o.description.map Value.str),
    ("summary", o.summary.map Value.str), ("operationUrl", o.operationUrl.map Value.str),
    ("parameters", some (.list (o.parameters.map Parameter.dump))),
    ("requestBody", some (.list (o.requestBody.map RequestBody.dump))),
    ("additionalFields", o.additionalFields.map FieldGroup.dump),
    ("updateFields", o.updateFields.map FieldGroup.dump)]

theorem Operation.dump_eq (o : Operation) : o.dump = .map (present o.slots) := by
  simp [Operation.dump, Value.record, present, Operation.slots, Wire.optional]

theorem Operation.read?_of_dump (o : Operation) : Operation.read? o.dump = .good o := by
  let names : List Text := ["endpoint", "requestMethod", "operationId", "description", "summary",
    "operationUrl", "parameters", "requestBody", "additionalFields", "updateFields"]
  have hslots : o.slots.map Prod.fst = names := rfl
  have hnames : (o.slots.map Prod.fst).Nodup := by
    rw [hslots]
    decide
  have hendpoint : need (.same "endpoint") checkText (present o.slots) = .good o.endpoint :=
    need_present hnames (by simp [slots, Key.same]) (checkText_str o.endpoint)
  have hmethod : need ⟨"requestMethod", "request_method"⟩ checkText (present o.slots) =
      .good o.requestMethod :=
    need_present hnames (by simp [slots]) (checkText_str o.requestMethod)
  have hid : need ⟨"operationId", "operation_id"⟩ checkText (present o.slots) =
      .good o.operationId :=
    need_present hnames (by simp [slots]) (checkText_str o.operationId)
  have hdescription : may (.same "description") none (orNull checkText) (present o.slots) =
      .good o.description :=
    may_orNull_present hnames (by simp [slots, Key.same]) (.inl rfl) str_ne_null checkText_str
  have hsummary : may (.same "summary") none (orNull checkText) (present o.slots) =
      .good o.summary :=
    may_orNull_present hnames (by simp [slots, Key.same]) (.inl rfl) str_ne_null checkText_str
  have hurl : may ⟨"operationUrl", "operation_url"⟩ none (orNull checkText) (present o.slots) =
      .good o.operationUrl :=
    may_orNull_present hnames (by simp [slots]) (.inr (by rw [hslots]; decide)) str_ne_null
      checkText_str
  have hparameters : may (.same "parameters") [] (checkList Parameter.read?) (present o.slots) =
      .good o.parameters :=
    may_present hnames (by simp [slots, Key.same])
      (checkList_map Parameter.read?_of_dump o.parameters)
  have hbodies : may ⟨"requestBody", "request_body"⟩ [] (checkList RequestBody.read?)
      (present o.slots) = .good o.requestBody :=
    may_present hnames (by simp [slots]) (checkList_map RequestBody.read?_of_dump o.requestBody)
  have hadditional : may ⟨"additionalFields", "additional_fields"⟩ none (orNull FieldGroup.read?)
      (present o.slots) = .good o.additionalFields :=
    may_orNull_present hnames (by simp [slots]) (.inr (by rw [hslots]; decide))
      FieldGroup.dump_ne_null FieldGroup.read?_of_dump
  have hupdate : may ⟨"updateFields", "update_fields"⟩ none (orNull FieldGroup.read?)
      (present o.slots) = .good o.updateFields :=
    may_orNull_present hnames (by simp [slots]) (.inr (by rw [hslots]; decide))
      FieldGroup.dump_ne_null FieldGroup.read?_of_dump
  rw [dump_eq, read?, checkModel, ofFields, hendpoint, hmethod, hid, hdescription, hsummary, hurl,
    hparameters, hbodies, hadditional, hupdate]
  rfl

/-! ### Services and node models -/

/-- The fields of a service. -/
def Service.slots (s : Service) : Slots :=
  [("serviceName", some (.str s.serviceName)), ("authType", some (.str s.authType.text)),
    ("nodeColor", some (.str s.nodeColor)), ("apiUrl", some (.str s.apiUrl))]

theorem Service.dump_eq (s : Service) : s.dump = .map (present s.slots) := rfl

theorem Service.read?_of_dump (s : Service) : Service.read? s.dump = .good s := by
  have hnames : (s.slots.map Prod.fst).Nodup := by
    show (["serviceName", "authType", "nodeColor", "apiUrl"] : List Text).Nodup
    decide
  have hname : need ⟨"serviceName", "service_name"⟩ checkText (present s.slots) =
      .good s.serviceName :=
    need_present hnames (by simp [slots]) (checkText_str s.serviceName)
  have hauth : may ⟨"authType", "auth_type"⟩ .anonymous (checkName AuthType.ofText?)
      (present s.slots) = .good s.authType :=
    may_present hnames (by simp [slots]) (checkName_authType s.authType)
  have hcolor : may ⟨"nodeColor", "node_color"⟩ defaultNodeColor checkText (present s.slots) =
      .good s.nodeColor :=
    may_present hnames (by simp [slots]) (checkText_str s.nodeColor)
  have hurl : may ⟨"apiUrl", "api_url"⟩ [] checkText (present s.slots) = .good s.apiUrl :=
    may_present hnames (by simp [slots]) (checkText_str s.apiUrl)
  rw [dump_eq, read?, checkModel, ofFields, hname, hauth, hcolor, hurl]
  rfl

/-- The fields of a node model. -/
def NodeModel.slots (m : NodeModel) : Slots :=
  [("metaParams", some m.service.dump),
    ("mainParams", some (.record (m.resources.map fun r => (r.1, .list (r.2.map Operation.dump)))))]

theorem NodeModel.dump_eq (m : NodeModel) : m.dump = .map (present m.slots) := rfl

/-- **A node model is read back from its dump.** What is read is the model itself: no field comes
out changed, left out or filled in, and the resources, operations, parameters, content types and
keys of schemas stand in the order they had. -/
theorem NodeModel.read?_dump (m : NodeModel) : NodeModel.read? m.dump = .good m := by
  have hnames : (m.slots.map Prod.fst).Nodup := by
    show (["metaParams", "mainParams"] : List Text).Nodup
    decide
  have hservice : need ⟨"metaParams", "meta_params"⟩ Service.read? (present m.slots) =
      .good m.service :=
    need_present hnames (by simp [slots]) m.service.read?_of_dump
  have hresources : may ⟨"mainParams", "main_params"⟩ []
      (checkEntries (checkList Operation.read?)) (present m.slots) = .good m.resources :=
    may_present hnames (by simp [slots])
      (checkEntries_map (checkList_map Operation.read?_of_dump) m.resources)
  rw [dump_eq, read?, checkModel, ofFields, hservice, hresources]
  rfl

end NodeForge
