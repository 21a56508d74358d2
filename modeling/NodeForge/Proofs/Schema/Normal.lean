import NodeForge.Proofs.Schema.Clashes
import NodeForge.Proofs.Schema.Mandatory
import NodeForge.Proofs.Text.Order

/-!
# The normal form of a form

What the steps to a form write is in a normal form: choices stand under `options` and no longer
under `enum`, the properties are sorted by their folded names and travel with the request, and the
names that are listed as required are different and are names of properties. `IsNormal` says this of
one node and the node that it was made from. A form goes through the same steps at each of its
nodes, so none of them is in any other form (`isNormal_of_toForm`).
-/

namespace NodeForge.Schema

/-- Whether a node of a form, made from a node of a schema for a method, is in normal form: without
an `enum`, in place of which it has options; with properties in strict order under folded names, no
read-only ones but for `GET` and no write-only ones for it; and with mandatory names that are all
different and names of properties. -/
structure IsNormal (method : Text) (node made : Fields) : Prop where
  noEnum : Scalar.str "enum" ∉ Entries.keys made
  choices : ∀ choices, Fields.get? "enum" node = some choices → ∃ options,
    choices.members = .ok options ∧ Fields.get? "type" made = some (.str "options") ∧
      Fields.get? "options" made = some (.list options)
  names : ∀ qs, Fields.get? "properties" made = some (.map qs) → ∃ ps, ∃ names : List Text,
    mapping? "properties" node = some ps ∧ Entries.keys qs = names.map Scalar.str ∧
      names.Pairwise Text.Precedes ∧
      ∀ name ∈ names, ∃ n, Scalar.str n ∈ Entries.keys ps ∧ name = Naming.field n
  travels : ∀ qs, Fields.get? "properties" made = some (.map qs) → ∀ k q, (k, Value.map q) ∈ qs →
    ((Fields.get "readOnly" q).truthy = true → Text.upper method = "GET") ∧
      ((Fields.get "writeOnly" q).truthy = true → Text.upper method ≠ "GET")
  required : ∀ qs rs, Fields.get? "properties" made = some (.map qs) →
    Fields.get? "required" made = some (.list rs) →
      rs.Nodup ∧ ∀ r ∈ rs, ∃ k ∈ Entries.keys qs, r = .scalar k

variable {method : Text}

section Node

variable {node made : Fields}

/-! ### One node -/

theorem enum_not_mem_keys (h : formOfFields method node = .ok made) :
    Scalar.str "enum" ∉ Entries.keys made := by
  obtain ⟨base, hbase, hkept⟩ := exists_base h
  have hnone := get?_enum_enumToOptions hbase
  rw [← hkept "enum" (by decide) (by decide) (by decide), Fields.get?,
    List.lookup_eq_none_iff] at hnone
  intro hmem
  obtain ⟨e, he, hkey⟩ := List.mem_map.1 hmem
  have hne := hnone e he
  rw [hkey, bne, BEq.refl] at hne
  cases hne

/-- Sorted by name, fields with different names are in strict order. -/
theorem exists_names_sortedProperties {properties : Fields} {fields : List FormField}
    (h : formFields method [] properties = .ok fields) : ∃ names : List Text,
      Entries.keys (sortedProperties fields) = names.map Scalar.str ∧
        names.Pairwise Text.Precedes := by
  let sorted := fields.mergeSort fun a b => Text.atMost a.name b.name
  refine ⟨sorted.map FormField.name, ?_, ?_⟩
  · rw [Entries.keys, sortedProperties, List.map_map, List.map_map]
    rfl
  · exact List.pairwise_map.2 (Text.pairwise_mergeSort_of_nodup (formFields_spec h).2.1)

theorem names_of_formOfFields (h : formOfFields method node = .ok made) {qs : Fields}
    (hqs : Fields.get? "properties" made = some (.map qs)) : ∃ ps, ∃ names : List Text,
      mapping? "properties" node = some ps ∧ Entries.keys qs = names.map Scalar.str ∧
        names.Pairwise Text.Precedes ∧
        ∀ name ∈ names, ∃ n, Scalar.str n ∈ Entries.keys ps ∧ name = Naming.field n := by
  obtain ⟨ps, fields, hps, hfields, rfl⟩ := exists_fields_of_get? h hqs
  obtain ⟨names, hkeys, hsorted⟩ := exists_names_sortedProperties hfields
  refine ⟨ps, names, hps, hkeys, hsorted, fun name hname => ?_⟩
  have hkey : Scalar.str name ∈ Entries.keys (sortedProperties fields) := by
    rw [hkeys]
    exact List.mem_map_of_mem hname
  obtain ⟨n, hn, hfold⟩ := (renames_of_formFields hfields).bijective.surjOn hkey
  obtain ⟨v, hv, -⟩ := mem_visibleNames.1 hn
  exact ⟨n, List.mem_map.2 ⟨_, hv, rfl⟩, hfold.symm⟩

theorem isVisible_iff {property : Fields} : isVisible method property = true ↔
    ((Fields.get "readOnly" property).truthy = true → Text.upper method = "GET") ∧
      ((Fields.get "writeOnly" property).truthy = true → Text.upper method ≠ "GET") := by
  have hget : isGet method = true ↔ Text.upper method = "GET" := beq_iff_eq
  rw [isVisible, Ne, ← hget]
  cases (Fields.get "readOnly" property).truthy <;>
    cases (Fields.get "writeOnly" property).truthy <;> cases isGet method <;> decide

/-- The form of a property travels exactly where the property does. -/
theorem isVisible_of_formOfFields (h : formOfFields method node = .ok made) :
    isVisible method made = isVisible method node := by
  obtain ⟨base, hbase, hkept⟩ := exists_base h
  have hread : Fields.get "readOnly" made = Fields.get "readOnly" node := by
    rw [Fields.get, hkept _ (by decide) (by decide) (by decide),
      get?_enumToOptions hbase (by decide) (by decide) (by decide)]
    rfl
  have hwrite : Fields.get "writeOnly" made = Fields.get "writeOnly" node := by
    rw [Fields.get, hkept _ (by decide) (by decide) (by decide),
      get?_enumToOptions hbase (by decide) (by decide) (by decide)]
    rfl
  rw [isVisible, isVisible, hread, hwrite]

/-- What is visible in a form is what was visible in its schema. -/
theorem isVisible_of_mem (h : formOfFields method node = .ok made) {qs : Fields}
    (hqs : Fields.get? "properties" made = some (.map qs)) {k : Scalar} {q : Fields}
    (hmem : (k, Value.map q) ∈ qs) : isVisible method q = true := by
  obtain ⟨ps, fields, hps, hfields, rfl⟩ := exists_fields_of_get? h hqs
  obtain ⟨n, v, -, hshown, -, hform⟩ := (renames_of_formFields hfields).origin _ hmem
  obtain ⟨p, rfl, hp⟩ := formOfProperty_eq_ok_map.1 hform
  rw [isVisible_of_formOfFields hp]
  exact hshown

theorem required_of_formOfFields (h : formOfFields method node = .ok made) {qs : Fields}
    (hqs : Fields.get? "properties" made = some (.map qs)) {rs : List Value}
    (hrs : Fields.get? "required" made = some (.list rs)) :
    rs.Nodup ∧ ∀ r ∈ rs, ∃ k ∈ Entries.keys qs, r = .scalar k := by
  obtain ⟨ps, fields, hps, hfields, rfl⟩ := exists_fields_of_get? h hqs
  -- the names are written over what the schema lists, by the same fields
  obtain ⟨listed, hlisted⟩ := exists_listed_of_formOfFields h hrs
  obtain ⟨fields', hfields', -, hrequired⟩ := (isFormOf_of_formOfFields h).properties ps hps
  obtain ⟨names, hnames, hmade⟩ := hrequired listed hlisted
  rw [← Except.ok.inj (hfields.symm.trans hfields')] at hnames
  rw [hmade, Option.some.injEq, Value.texts, Value.list.injEq] at hrs
  rw [← hrs]
  refine ⟨(nodup_of_requiredNames hnames).map fun a b hab => ?_, fun r hr => ?_⟩
  · exact Scalar.str.inj (Value.scalar.inj hab)
  · obtain ⟨name, hname, rfl⟩ := List.mem_map.1 hr
    obtain ⟨f, hf, rfl⟩ := ((mem_requiredNames hnames).1 hname).2
    exact ⟨_, List.mem_map.2 ⟨_, mem_sortedProperties.2 ⟨f, hf, rfl⟩, rfl⟩, rfl⟩

theorem isNormal_of_formOfFields (h : formOfFields method node = .ok made) :
    IsNormal method node made where
  noEnum := enum_not_mem_keys h
  choices _ henum := options_of_enum h henum
  names _ hqs := names_of_formOfFields h hqs
  travels _ hqs _ _ hmem := isVisible_iff.1 (isVisible_of_mem h hqs hmem)
  required _ _ hqs hrs := required_of_formOfFields h hqs hrs

end Node

/-! ### All nodes -/

/-- **Normal form.** Wherever a schema has a form, every node of the form has the place of a node of
the schema, and is in normal form. -/
theorem isNormal_of_toForm {schema : Value} {form made : Fields}
    (h : toForm method schema = .ok form) (hmade : IsNodeOf form made) :
    ∃ es node, schema = .map es ∧ Faces method es form node made ∧ IsNormal method node made := by
  obtain ⟨es, rfl, hform⟩ := toForm_eq_ok.1 h
  obtain ⟨node, hnode⟩ := exists_faces_of_isNodeOf hmade hform
  exact ⟨es, node, rfl, hnode, isNormal_of_formOfFields (formOfFields_of_faces hnode hform)⟩

/-- The choice of a postcode, two levels down in the form of an account. -/
theorem isNormal_postcode : ∃ form made, toForm "post" (.map accountSchema) = .ok form ∧
    IsNodeOf form made ∧ Fields.get? "options" made = some (.list [.int 1]) ∧
      ∃ es node, Value.map accountSchema = .map es ∧ Faces "post" es form node made ∧
        IsNormal "post" node made := by
  obtain ⟨form, hform⟩ := Outcome.isOk_iff.1
    (by decide +kernel : (formOfFields "post" accountSchema).isOk = true)
  have htown : Reaches "post"
      [(.str "properties", .record [("zip-code", .record [("enum", .list [.int 1])])])]
      [(.str "enum", .list [.int 1])] :=
    .property rfl (.head _) rfl (.here _)
  have hreaches : Reaches "post" accountSchema [(.str "enum", .list [.int 1])] :=
    .property rfl (.tail _ (.tail _ (.head _))) rfl htown
  obtain ⟨made, hfaces⟩ := exists_faces hreaches hform
  have hmade := isNodeOf_of_faces hfaces
  obtain ⟨options, hmembers, -, hoptions⟩ :=
    options_of_enum (formOfFields_of_faces hfaces hform) rfl
  cases hmembers
  exact ⟨form, made, hform, hmade, hoptions, isNormal_of_toForm hform hmade⟩

end NodeForge.Schema
