import NodeForge.Proofs.Endpoint
import NodeForge.Proofs.OpenApi.Declarations
import NodeForge.Proofs.OpenApi.Rows
import NodeForge.Proofs.Schema.Form

/-!
# The parameters of a staged operation

The parameters of an operation come in three parts: one for each placeholder of its endpoint, one
for each mandatory query parameter in force, and one more for all other query parameters together.
`Mention.Parts` says what each part is made of, and `parts_of_stageParameters` that staging makes
these parts and nothing else.
-/

namespace NodeForge.OpenApi

/-! ### What the parts are made of -/

/-- Whether a mandatory parameter is made from a declaration, under its own name. -/
structure IsMadeFrom (location : Location) (method : Text) (raw : Fields) (p : Parameter) :
    Prop where
  location : p.location = location
  name : Wire.checkText (nameOf raw) = .good p.name
  required : p.required = true
  schema : ∃ v, schemaOf raw = .ok v ∧ Schema.toForm method v = .ok p.schema
  description : p.description = descriptionOf raw
  exampleValue : p.exampleValue = exampleOf raw

/-- Whether the schema of a declaration travels with a request. -/
def travels (method : Text) (raw : Fields) : Bool :=
  match schemaOf raw with
  | .ok schema => Schema.isShown method schema
  | .error _ => true

/-- Whether a field of a form is made from a declaration: under its folded name, with the form of
its schema. -/
structure IsFieldOf (method : Text) (raw : Fields) (f : Schema.FormField) : Prop where
  origin : nameOf raw = .str f.origin
  name : f.name = Naming.field f.origin
  schema : ∃ v, describedSchema raw = .ok v ∧ Schema.formOfProperty method v = .ok f.schema

namespace Mention

/-- Whether a parameter is the one for a placeholder. It is made from the declaration in force for
this name in the path, or from scratch if there is none. -/
def FillsPlaceholder (m : Mention) (name : Text) (p : Parameter) : Prop :=
  p.name = name ∧ ∃ raw, IsMadeFrom .path m.method raw p ∧
    ((raw ∈ m.inForce ∧ isIn "path" raw = true ∧ nameOf raw = .str name) ∨
      (raw = undeclared name ∧
        ∀ other ∈ m.inForce, isIn "path" other = true → nameOf other ≠ .str name))

/-- Whether a parameter holds the optional query parameters: it is called `query`, is optional
itself, and its schema is an object with one property for each of them that travels. -/
structure Gathers (m : Mention) (p : Parameter) : Prop where
  location : p.location = .query
  name : p.name = "query"
  required : p.required = false
  properties : ∃ properties fields, p.schema = objectSchema properties ∧
    properties.Perm (fields.map fun f => (Scalar.str f.name, f.schema)) ∧
    List.Forall₂ (IsFieldOf m.method) (m.optionalQuery.filter (travels m.method)) fields ∧
    (fields.map Schema.FormField.name).Nodup

/-- What the three parts of the parameters are made of, where every declaration has a place and a
name that can be a key. The first part goes through what a search of the endpoint finds. -/
structure Parts (m : Mention) (endpoint : Text) (path required gathered : List Parameter) :
    Prop where
  keyed : ∀ raw ∈ m.declared, ∃ key, declarationKey? raw = some key
  path : ∃ names, Endpoint.HasPlaceholders endpoint names ∧
    List.Forall₂ m.FillsPlaceholder names path
  required : List.Forall₂ (IsMadeFrom .query m.method) m.requiredQuery required
  gathered : (m.optionalQuery = [] ∧ gathered = []) ∨
    (m.optionalQuery ≠ [] ∧ ∃ p, gathered = [p] ∧ m.Gathers p)

theorem Parts.forall₂_placeholders {m : Mention} {endpoint : Text}
    {path required gathered : List Parameter} (h : m.Parts endpoint path required gathered) :
    List.Forall₂ m.FillsPlaceholder (Endpoint.placeholders endpoint) path := by
  obtain ⟨names, hnames, hpath⟩ := h.path
  rwa [← Endpoint.hasPlaceholders_iff.1 hnames]

end Mention

/-! ### Single parameters -/

theorem isMadeFrom_of_stageParameter {location : Location} {method : Text} {raw : Fields}
    {p : Parameter} (h : stageParameter location method true raw = .ok p) :
    IsMadeFrom location method raw p := by
  obtain ⟨v, hv, h⟩ := Outcome.bind_eq_ok.1 h
  obtain ⟨schema, hschema, h⟩ := Outcome.bind_eq_ok.1 h
  obtain ⟨name, hname, h⟩ := Outcome.bind_eq_ok.1 h
  rw [Outcome.toExcept_eq_ok, Outcome.under_eq_good] at hname
  rw [Outcome.pure_eq_ok] at h
  rw [← h]
  exact {
    location := rfl
    name := hname
    required := rfl
    schema := ⟨v, Outcome.lift_eq_ok.1 hv, hschema⟩
    description := rfl
    exampleValue := rfl }

/-- What is staged for a placeholder is called like it, whether it is declared or not. -/
theorem fillsPlaceholder_of_stageParameter {m : Mention} {name : Text} {p : Parameter}
    (h : stageParameter .path m.method true
      (((m.inForce.filter (isIn "path")).find? fun raw => (nameOf raw).isText name).getD
        (undeclared name)) = .ok p) : m.FillsPlaceholder name p := by
  have hmade := isMadeFrom_of_stageParameter h
  cases hfound : (m.inForce.filter (isIn "path")).find? fun raw => (nameOf raw).isText name with
  | some raw =>
    rw [hfound, Option.getD_some] at hmade
    have hname : nameOf raw = .str name := by
      have hsome := List.find?_some hfound
      exact isText_iff.1 hsome
    obtain ⟨hmem, hplace⟩ := List.mem_filter.1 (List.mem_of_find?_eq_some hfound)
    -- the declaration has the name of the placeholder, and the parameter takes it over
    have hgood := hmade.name
    rw [hname] at hgood
    cases hgood
    exact ⟨rfl, raw, hmade, Or.inl ⟨hmem, hplace, hname⟩⟩
  | none =>
    rw [hfound, Option.getD_none] at hmade
    have hgood := hmade.name
    cases hgood
    refine ⟨rfl, undeclared _, hmade, Or.inr ⟨rfl, ?_⟩⟩
    intro other hother hplace hname
    exact List.find?_eq_none.1 hfound other (List.mem_filter.2 ⟨hother, hplace⟩)
      (isText_iff.2 hname)

/-! ### The gathered parameter -/

theorem isShown_describedSchema {method : Text} {raw : Fields} {v : Value}
    (h : describedSchema raw = .ok v) : Schema.isShown method v = travels method raw := by
  obtain ⟨schema, hschema, h⟩ := Outcome.bind_eq_ok.1 h
  rw [travels, hschema]
  dsimp only at h ⊢
  split at h
  · rw [Outcome.pure_eq_ok] at h
    rw [h]
  · next description _ =>
    obtain ⟨fields, hfields, h⟩ := Outcome.bind_eq_ok.1 h
    rw [Outcome.orFault_eq_ok] at hfields
    rw [Outcome.pure_eq_ok] at h
    have hmap : schema = .map fields := by
      cases schema <;> simp_all [Value.fields?]
    -- writing the description touches neither of the two marks
    have hkeep (key : Text) (hkey : (Scalar.str key == Scalar.str "description") = false) :
        Fields.get key (Fields.put "description" (.str description) fields) =
          Fields.get key fields := by
      rw [Fields.get, Fields.get, Fields.get?, Fields.put, Entries.lookup_put, hkey]
      rfl
    rw [← h, hmap, Schema.isShown, Schema.isShown, Schema.isVisible, Schema.isVisible,
      hkeep "readOnly" (by decide), hkeep "writeOnly" (by decide)]

theorem formParts_object (method : Text) (properties : Fields) :
    Schema.formParts method (objectSchema properties) =
      ⟨some (Schema.formFields method [] properties), none⟩ := by
  rw [objectSchema, Schema.formParts, Schema.formParts, Schema.formParts]
  · rfl
  -- the type of an object is no mapping
  · exact fun es _ h => nomatch h
  · exact fun es _ h => nomatch h

/-- The form of an object has the fields for its properties, sorted by name. -/
theorem formOfFields_object {method : Text} {properties form : Fields}
    (h : Schema.formOfFields method (objectSchema properties) = .ok form) :
    ∃ fields, Schema.formFields method [] properties = .ok fields ∧
      form = objectSchema (Schema.sortedProperties fields) := by
  have henum : Fields.get? "enum" (objectSchema properties) = none := rfl
  have hrequired : Fields.get? "required" (objectSchema properties) = none := rfl
  rw [Schema.formOfFields, formParts_object] at h
  unfold Schema.FormParts.assemble Schema.enumToOptions at h
  rw [henum, hrequired] at h
  dsimp only at h
  obtain ⟨form', hform, h⟩ := Outcome.bind_eq_ok.1 h
  rw [Outcome.lift_eq_ok, Except.ok.injEq] at hform
  obtain ⟨fields, hfields, h⟩ := Outcome.bind_eq_ok.1 h
  obtain ⟨form'', hform'', h⟩ := Outcome.bind_eq_ok.1 h
  rw [Outcome.pure_eq_ok] at h hform''
  rw [← h, ← hform'', ← hform]
  exact ⟨fields, hfields, rfl⟩

/-- The properties that declarations make, as far as they travel, become fields one by one. -/
theorem isFieldOf_of_formFields {method : Text} {raws : List Fields} {properties : Fields}
    {fields : List Schema.FormField} (hproperties : propertiesOf raws = .ok properties)
    (hfields : Schema.formFields method [] properties = .ok fields) :
    List.Forall₂ (IsFieldOf method) (raws.filter (travels method)) fields := by
  rw [propertiesOf, Outcome.mapM_eq_ok] at hproperties
  have hmade : List.Forall₂ (fun raw (e : Scalar × Value) =>
      propertyKey (nameOf raw) = .ok e.1 ∧ describedSchema raw = .ok e.2) raws properties := by
    refine hproperties.imp fun raw e he => ?_
    obtain ⟨key, hkey, he⟩ := Outcome.bind_eq_ok.1 he
    obtain ⟨v, hv, he⟩ := Outcome.bind_eq_ok.1 he
    rw [Outcome.pure_eq_ok] at he
    rw [← he]
    exact ⟨hkey, hv⟩
  -- what is visible among the properties is what travels among the declarations
  have hshown := List.rel_filter (p := travels method)
    (q := fun e : Scalar × Value => Schema.isShown method e.2)
    (fun raw e he => by
      show travels method raw = true ↔ Schema.isShown method e.2 = true
      rw [isShown_describedSchema he.2]) hmade
  refine Outcome.forall₂_comp ?_ hshown (Schema.formFields_spec hfields).1
  intro raw e f hraw hf
  refine ⟨?_, hf.name, e.2, hraw.2, hf.schema⟩
  -- a field has a text for its name, so it is not one that stands for a pair
  rcases eq_of_propertyKey hraw.1 with hname | ⟨a, b, -, hnull⟩
  · rw [hname, hf.origin]
  · rw [hf.origin] at hnull
    cases hnull

theorem gathers_of_stageOptional {m : Mention} {p : Parameter}
    (h : stageOptional m.method m.optionalQuery = .ok p) : m.Gathers p := by
  obtain ⟨properties, hproperties, h⟩ := Outcome.bind_eq_ok.1 h
  rw [Outcome.lift_eq_ok] at hproperties
  obtain ⟨schema, hschema, h⟩ := Outcome.bind_eq_ok.1 h
  rw [Outcome.pure_eq_ok] at h
  obtain ⟨fields, hfields, hform⟩ := formOfFields_object hschema
  rw [← h]
  refine ⟨rfl, rfl, rfl, Schema.sortedProperties fields, fields, hform, ?_,
    isFieldOf_of_formFields hproperties hfields, (Schema.formFields_spec hfields).2.1⟩
  exact (List.mergeSort_perm ..).map _

/-! ### All parameters -/

/-- **Three parts.** The parameters of an operation are those for the placeholders, the mandatory
query parameters and the gathered one, in this order. -/
theorem parts_of_stageParameters {m : Mention} {resource endpoint : Text}
    {parameters : List Parameter} {dropped : List Warning} (hpath : m.path = .str endpoint)
    (h : stageParameters (m.context resource) = .ok (parameters, dropped)) :
    ∃ path required gathered, parameters = path ++ required ++ gathered ∧
      m.Parts endpoint path required gathered := by
  obtain ⟨declared, hdeclared, h⟩ := Outcome.bind_eq_ok.1 h
  rw [Outcome.lift_eq_ok] at hdeclared
  obtain ⟨hkeyed, hdeclares⟩ := declares_of_declarations hdeclared
  rw [declaredIn_eq hdeclares, declaredIn_eq hdeclares] at h
  obtain ⟨endpoint', hendpoint, h⟩ := Outcome.bind_eq_ok.1 h
  rw [Outcome.lift_eq_ok, Outcome.asText_eq_ok] at hendpoint
  change m.path = .str endpoint' at hendpoint
  rw [hpath, Scalar.str.injEq] at hendpoint
  rw [← hendpoint] at h
  obtain ⟨path, hpath, h⟩ := Outcome.bind_eq_ok.1 h
  obtain ⟨required, hrequired, h⟩ := Outcome.bind_eq_ok.1 h
  rw [Outcome.mapM_eq_ok] at hpath hrequired
  have hparts (gathered : List Parameter)
      (hgathered : (m.optionalQuery = [] ∧ gathered = []) ∨
        (m.optionalQuery ≠ [] ∧ ∃ p, gathered = [p] ∧ m.Gathers p)) :
      m.Parts endpoint path required gathered := {
    keyed := hkeyed
    path := ⟨_, Endpoint.hasPlaceholders_iff.2 rfl,
      hpath.imp fun _ _ hp => fillsPlaceholder_of_stageParameter hp⟩
    required := hrequired.imp fun _ _ hp => isMadeFrom_of_stageParameter hp
    gathered := hgathered }
  -- nothing is gathered where there is no optional query parameter
  dsimp only at h
  split at h
  · next hempty =>
    obtain ⟨gathered, hgathered, h⟩ := Outcome.bind_eq_ok.1 h
    rw [Outcome.pure_eq_ok] at hgathered
    rw [Outcome.pure_eq_ok, Prod.mk.injEq, ← hgathered] at h
    exact ⟨path, required, [], h.1.symm, hparts [] (Or.inl ⟨List.isEmpty_iff.1 hempty, rfl⟩)⟩
  · next hsome =>
    obtain ⟨p, hp, h⟩ := Outcome.bind_eq_ok.1 h
    obtain ⟨gathered, hgathered, h⟩ := Outcome.bind_eq_ok.1 h
    rw [Outcome.pure_eq_ok] at hgathered
    rw [Outcome.pure_eq_ok, Prod.mk.injEq, ← hgathered] at h
    refine ⟨path, required, [p], h.1.symm, hparts [p] (Or.inr ⟨?_, p, rfl, ?_⟩)⟩
    · exact fun hnil => hsome (List.isEmpty_iff.2 hnil)
    · exact gathers_of_stageOptional hp

variable {given : Option Text} {nodeColor : Text} {document : Value} {staged : Staged}

/-- **The parameters of an operation.** Every operation of a staged document has exactly the
parameters of its mention: one for each name that its endpoint encloses, in the order in which the
names are found first, the mandatory query parameters in force under their own names, and one called
`query` for the other query parameters in force. -/
theorem parameters_of_stage (h : stage given nodeColor document = .ok staged) :
    ∀ e ∈ staged.model.resources, ∀ o ∈ e.2,
      ∃ m ∈ mentions document, e.1 ∈ m.resources ∧ m.Makes e.1 o.operationId o ∧
        ∃ path required gathered, o.parameters = path ++ required ++ gathered ∧
          m.Parts o.endpoint path required gathered := by
  intro e he o ho
  obtain ⟨m, hm, hresource, hmakes⟩ := exists_mention_of_mem h he ho
  obtain ⟨dropped, hparameters⟩ := hmakes.parameters
  exact ⟨m, hm, hresource, hmakes, parts_of_stageParameters hmakes.endpoint hparameters⟩

/-- A shop where a path parameter is declared and another one is not, a declaration of the operation
overrides one of its path, and of the optional query parameters one is hidden. -/
def parcelShop : Value :=
  .record [("paths", .record [("/parcels/\x7bid\x7d/\x7bpart\x7d", .record [
    ("parameters", .list [
      .record [("in", .str "path"), ("name", .str "id"), ("type", .str "integer")],
      .record [("in", .str "query"), ("name", .str "page size"), ("required", .bool true)],
      .record [("in", .str "header"), ("name", .str "trace")]]),
    ("get", .record [("parameters", .list [
      .record [("in", .str "query"), ("name", .str "since"), ("required", .bool true)],
      .record [("in", .str "query"), ("name", .str "page size")],
      .record [("in", .str "query"), ("name", .str "secret"),
        ("schema", .record [("writeOnly", .bool true)])]])])])])]

theorem parameters_parcelShop : ∃ staged, stage none defaultNodeColor parcelShop = .ok staged ∧
    staged.model.resources.map (fun e => e.2.map fun o => o.parameters.map Parameter.name) =
      ([[["id", "part", "since", "query"]]] : List (List (List Text))) ∧
    ∀ e ∈ staged.model.resources, ∀ o ∈ e.2, ∃ m ∈ mentions parcelShop,
      ∃ path required gathered, o.parameters = path ++ required ++ gathered ∧
        m.Parts o.endpoint path required gathered := by
  obtain ⟨staged, h⟩ := isStageable_iff.1
    (by decide +kernel : isStageable none defaultNodeColor parcelShop = true)
  have hnames : (stage none defaultNodeColor parcelShop).toOption.map (fun s =>
      s.model.resources.map fun e => e.2.map fun o => o.parameters.map Parameter.name) =
      some ([[["id", "part", "since", "query"]]] : List (List (List Text))) := by
    decide +kernel
  rw [h] at hnames
  refine ⟨staged, h, Option.some.inj hnames, fun e he o ho => ?_⟩
  obtain ⟨m, hm, -, -, hparts⟩ := parameters_of_stage h e he o ho
  exact ⟨m, hm, hparts⟩

end NodeForge.OpenApi
