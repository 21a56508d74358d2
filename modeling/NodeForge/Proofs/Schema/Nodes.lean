import Mathlib.Data.List.Nodup
import NodeForge.Proofs.Schema.Steps

/-!
# The nodes of a schema

A schema holds other schemas: its visible properties and its items. `Reaches` says which nodes of a
schema are gone into on the way to its form, and `Faces` which node of the form stands where a node
of the schema stood. That node is the form of the other one (`formOfFields_of_faces`), and there is
one for each node that is reached (`exists_faces`). Beside these a form has no nodes
(`exists_faces_of_isNodeOf`). So what holds of every node and its form holds all over a schema and
its form.
-/

namespace NodeForge.Schema

/-! ### Visible properties -/

/-- The names of the properties that travel with a request, in their order. -/
def visibleNames (method : Text) (properties : Fields) : List Text :=
  (properties.filter fun e => isShown method e.2).filterMap fun e => (Value.scalar e.1).text?

theorem mem_visibleNames {method n : Text} {properties : Fields} :
    n ∈ visibleNames method properties ↔
      ∃ v, (Scalar.str n, v) ∈ properties ∧ isShown method v = true := by
  rw [visibleNames, List.mem_filterMap]
  constructor
  · rintro ⟨⟨k, v⟩, he, hk⟩
    obtain ⟨hmem, hshown⟩ := List.mem_filter.1 he
    cases k <;> cases hk
    exact ⟨v, hmem, hshown⟩
  · rintro ⟨v, hmem, hshown⟩
    exact ⟨(.str n, v), List.mem_filter.2 ⟨hmem, hshown⟩, rfl⟩

theorem visibleNames_cons_of_shown {method n : Text} {v : Value} (h : isShown method v = true)
    (rest : Fields) :
    visibleNames method ((.str n, v) :: rest) = n :: visibleNames method rest := by
  rw [visibleNames, List.filter_cons, if_pos h]
  rfl

theorem visibleNames_cons_of_hidden {method : Text} {k : Scalar} {v : Value}
    (h : ¬ isShown method v = true) (rest : Fields) :
    visibleNames method ((k, v) :: rest) = visibleNames method rest := by
  rw [visibleNames, List.filter_cons, if_neg h]
  rfl

variable {method : Text} {properties : Fields} {fields : List FormField}

/-- The fields of a form are named after the visible properties. -/
theorem map_origin_eq (h : formFields method [] properties = .ok fields) :
    fields.map FormField.origin = visibleNames method properties := by
  have hfrom := (formFields_spec h).1
  rw [visibleNames]
  generalize (properties.filter fun e => isShown method e.2) = visible at hfrom
  clear h
  induction hfrom with
  | nil => rfl
  | cons hf _ ih =>
    rw [List.map_cons, ih, List.filterMap_cons, hf.origin]
    rfl

theorem map_name_eq (h : formFields method [] properties = .ok fields) :
    fields.map FormField.name = (visibleNames method properties).map Naming.field := by
  rw [← map_origin_eq h, List.map_map]
  refine List.map_congr_left fun f hf => ?_
  obtain ⟨e, -, he⟩ := Outcome.exists_left_of_mem (formFields_spec h).1 hf
  exact he.name

/-- Every visible property has its field. -/
theorem exists_field_of_mem (h : formFields method [] properties = .ok fields) {k : Scalar}
    {v : Value} (hmem : (k, v) ∈ properties) (hshown : isShown method v = true) :
    ∃ f ∈ fields, k = .str f.origin ∧ f.name = Naming.field f.origin ∧
      formOfProperty method v = .ok f.schema := by
  have hvisible : (k, v) ∈ properties.filter fun e => isShown method e.2 :=
    List.mem_filter.2 ⟨hmem, hshown⟩
  obtain ⟨f, hf, hfrom⟩ := Outcome.exists_right_of_mem (formFields_spec h).1 hvisible
  exact ⟨f, hf, hfrom.origin, hfrom.name, hfrom.schema⟩

/-- Every field has its visible property. -/
theorem exists_property_of_mem (h : formFields method [] properties = .ok fields) {f : FormField}
    (hf : f ∈ fields) : ∃ v, (Scalar.str f.origin, v) ∈ properties ∧ isShown method v = true ∧
      f.name = Naming.field f.origin ∧ formOfProperty method v = .ok f.schema := by
  obtain ⟨⟨k, v⟩, he, hfrom⟩ := Outcome.exists_left_of_mem (formFields_spec h).1 hf
  obtain ⟨hmem, hshown⟩ := List.mem_filter.1 he
  have hk : k = .str f.origin := hfrom.origin
  rw [hk] at hmem
  exact ⟨v, hmem, hshown, hfrom.name, hfrom.schema⟩

theorem mem_sortedProperties {e : Scalar × Value} :
    e ∈ sortedProperties fields ↔ ∃ f ∈ fields, (Scalar.str f.name, f.schema) = e := by
  rw [sortedProperties, List.mem_map]
  simp only [List.mem_mergeSort]

/-- No two properties of a form have one name. -/
theorem nodup_keys_sortedProperties (h : formFields method [] properties = .ok fields) :
    (Entries.keys (sortedProperties fields)).Nodup := by
  have hperm : (Entries.keys (sortedProperties fields)).Perm
      ((fields.map FormField.name).map Scalar.str) := by
    rw [Entries.keys, sortedProperties, List.map_map, List.map_map]
    exact (List.mergeSort_perm ..).map _
  rw [hperm.nodup_iff]
  exact (formFields_spec h).2.1.map fun _ _ heq => Scalar.str.inj heq

/-- A field is told by its name. -/
theorem eq_of_name_eq (h : formFields method [] properties = .ok fields) {f g : FormField}
    (hf : f ∈ fields) (hg : g ∈ fields) (hname : f.name = g.name) : f = g :=
  List.inj_on_of_nodup_map (formFields_spec h).2.1 hf hg hname

/-! ### A form that does not come about -/

/-- Whether two visible properties of a node have names that fold into one. -/
def Clashes (method : Text) (node : Fields) : Prop :=
  ∃ properties, mapping? "properties" node = some properties ∧
    ∃ m n, [m, n].Sublist (visibleNames method properties) ∧ Naming.field m = Naming.field n

/-- A property has no form only if it is a mapping that has none. -/
theorem error_of_formOfProperty {v : Value} {e : Failure} (h : formOfProperty method v = .error e) :
    ∃ p, v = .map p ∧ formOfFields method p = .error e := by
  cases v with
  | map p =>
    refine ⟨p, rfl, ?_⟩
    rw [formOfProperty] at h
    change Value.map <$> formOfFields method p = .error e at h
    cases hp : formOfFields method p with
    | error e' =>
      rw [hp] at h
      cases h
      rfl
    | ok f =>
      rw [hp] at h
      cases h
  | _ =>
    rw [formOfProperty] at h
    · cases h
    · exact nofun

/-- The fields for properties that are named by texts come to nothing only if a folded name is in
use already, or if a visible property has no form. -/
theorem error_of_formFields {taken : List (Text × Text)} {e : Failure}
    (hnames : ∀ entry ∈ properties, ∃ n, entry.1 = .str n)
    (h : formFields method taken properties = .error e) :
    (∃ cause, e = .spec cause ∧
      ((∃ n ∈ visibleNames method properties, taken.lookup (Naming.field n) ≠ none) ∨
        ∃ m n, [m, n].Sublist (visibleNames method properties) ∧
          Naming.field m = Naming.field n)) ∨
      ∃ k p, (k, Value.map p) ∈ properties ∧ isVisible method p = true ∧
        formOfFields method p = .error e := by
  induction properties generalizing taken with
  | nil => cases h
  | cons entry rest ih =>
    obtain ⟨k, v⟩ := entry
    obtain ⟨n, hn⟩ := hnames _ List.mem_cons_self
    have hrest : ∀ entry ∈ rest, ∃ n, entry.1 = .str n :=
      fun entry hentry => hnames entry (List.mem_cons_of_mem _ hentry)
    change k = .str n at hn
    subst hn
    rw [formFields] at h
    split at h
    -- a hidden property is passed over
    · next hhidden =>
      rw [visibleNames_cons_of_hidden (by simpa using hhidden)]
      rcases ih hrest h with hclash | ⟨k, p, hmem, hp⟩
      · exact Or.inl hclash
      · exact Or.inr ⟨k, p, List.mem_cons_of_mem _ hmem, hp⟩
    · next hshown =>
      have hshown : isShown method v = true := by simpa using hshown
      rw [visibleNames_cons_of_shown hshown]
      -- a text can be folded
      rcases Outcome.bind_eq_error.1 h with h | ⟨name, hname, h⟩
      · cases h
      rcases Outcome.bind_eq_error.1 h with h | ⟨origin, horigin, h⟩
      · cases h
      cases hname
      cases horigin
      split at h
      · next first hfirst =>
        refine Or.inl ⟨_, (Except.error.inj h).symm, Or.inl ⟨n, List.mem_cons_self, ?_⟩⟩
        rw [hfirst]
        exact Option.some_ne_none _
      · next hnew =>
        rcases Outcome.bind_eq_error.1 h with h | ⟨schema, -, h⟩
        · obtain ⟨p, rfl, hp⟩ := error_of_formOfProperty h
          exact Or.inr ⟨_, p, List.mem_cons_self, hshown, hp⟩
        rcases Outcome.bind_eq_error.1 h with h | ⟨fields, -, h⟩
        · rcases ih hrest h with ⟨cause, hcause, hclash⟩ | ⟨k, p, hmem, hp⟩
          · refine Or.inl ⟨cause, hcause, ?_⟩
            rcases hclash with ⟨m, hm, htaken⟩ | ⟨m, m', hsub, hsame⟩
            · rw [List.lookup_cons] at htaken
              split at htaken
              -- the name that is in use is that of the first property
              · next hsame =>
                refine Or.inr ⟨n, m, List.Sublist.cons_cons n (List.singleton_sublist.2 hm), ?_⟩
                exact (eq_of_beq hsame).symm
              · exact Or.inl ⟨m, List.mem_cons_of_mem _ hm, htaken⟩
            · exact Or.inr ⟨m, m', hsub.cons n, hsame⟩
          · exact Or.inr ⟨k, p, List.mem_cons_of_mem _ hmem, hp⟩
        · cases h

/-! ### Nodes and their forms -/

/-- A fact about a schema that follows from the same fact about its properties and its items is a
fact about every schema. -/
theorem induction_on {P : Fields → Prop}
    (step : ∀ schema,
      (∀ properties, mapping? "properties" schema = some properties →
        ∀ k p, (k, Value.map p) ∈ properties → P p) →
      (∀ inner, mapping? "items" schema = some inner → P inner) → P schema)
    (schema : Fields) : P schema := by
  induction hsize : sizeOf schema using Nat.strong_induction_on generalizing schema with
  | _ size ih =>
    refine step schema (fun properties hproperties k p hp => ?_) (fun inner hinner => ?_)
    · have hproperties := sizeOf_lt_of_mapping? hproperties
      have hp := sizeOf_lt_of_mem hp
      exact ih (sizeOf p) (by omega) p rfl
    · have hinner := sizeOf_lt_of_mapping? hinner
      exact ih (sizeOf inner) (by omega) inner rfl

/-- Whether a node is one of those that make the form of a schema: the schema itself, and the nodes
of its visible properties and of its items. -/
inductive Reaches (method : Text) : (schema node : Fields) → Prop
  | here (schema : Fields) : Reaches method schema schema
  | property {schema properties p node : Fields} {k : Scalar} :
      mapping? "properties" schema = some properties → (k, .map p) ∈ properties →
      isVisible method p = true → Reaches method p node → Reaches method schema node
  | items {schema inner node : Fields} :
      mapping? "items" schema = some inner → Reaches method inner node → Reaches method schema node

theorem map_mem_parts_of_mapping? {key : Text} {schema es : Fields}
    (h : mapping? key schema = some es) : Value.map es ∈ (Value.map schema).parts := by
  obtain ⟨e, he, hes⟩ := List.exists_of_findSome?_eq_some h
  split at hes
  · rw [Value.fields?_eq_some] at hes
    refine Value.mem_parts_map.2 (Or.inr ⟨e, he, ?_⟩)
    rw [hes]
    exact Value.self_mem_parts _
  · cases hes

/-- The nodes that are reached are parts of the schema. -/
theorem map_mem_parts_of_reaches {schema node : Fields} (h : Reaches method schema node) :
    Value.map node ∈ (Value.map schema).parts := by
  induction h with
  | here => exact Value.self_mem_parts _
  | property hproperties hmem _ _ ih =>
    refine Value.mem_parts_trans (map_mem_parts_of_mapping? hproperties) ?_
    exact Value.mem_parts_map.2 (Or.inr ⟨_, hmem, ih⟩)
  | items hinner _ ih => exact Value.mem_parts_trans (map_mem_parts_of_mapping? hinner) ih

/-- Whether a node of a schema has a node of a form in its place: the way to the one leads to the
other when the names of the properties are folded. -/
inductive Faces (method : Text) : (schema form node made : Fields) → Prop
  | here (schema form : Fields) : Faces method schema form schema form
  | property {schema form ps qs p q node made : Fields} {n : Text} :
      mapping? "properties" schema = some ps → (.str n, .map p) ∈ ps →
      isVisible method p = true → Fields.get? "properties" form = some (.map qs) →
      (.str (Naming.field n), .map q) ∈ qs → Faces method p q node made →
      Faces method schema form node made
  | items {schema form inner f node made : Fields} :
      mapping? "items" schema = some inner → Fields.get? "items" form = some (.map f) →
      Faces method inner f node made → Faces method schema form node made

theorem formOfProperty_map_eq_ok {p : Fields} {v : Value} :
    formOfProperty method (.map p) = .ok v ↔ ∃ q, formOfFields method p = .ok q ∧ v = .map q := by
  rw [formOfProperty]
  show Value.map <$> formOfFields method p = .ok v ↔ _
  rw [Outcome.map_eq_ok]
  simp only [eq_comm]

/-- What has the place of a node in the form of a schema is the form of the node. -/
theorem formOfFields_of_faces {schema form node made : Fields}
    (hfaces : Faces method schema form node made) (h : formOfFields method schema = .ok form) :
    formOfFields method node = .ok made := by
  induction hfaces with
  | here => exact h
  | property hproperties hmem hvisible hmade hq _ ih =>
    obtain ⟨fields, hfields, hform, -⟩ := (isFormOf_of_formOfFields h).properties _ hproperties
    rw [hform, Option.some.injEq, Value.map.injEq] at hmade
    rw [← hmade, mem_sortedProperties] at hq
    obtain ⟨g, hg, hentry⟩ := hq
    obtain ⟨f, hf, hn, hname, hschema⟩ := exists_field_of_mem hfields hmem hvisible
    obtain ⟨q', hq', hfq⟩ := formOfProperty_map_eq_ok.1 hschema
    rw [Prod.mk.injEq, Scalar.str.injEq] at hentry
    rw [Scalar.str.injEq] at hn
    -- of the fields only one has this name
    have hgf : g = f := eq_of_name_eq hfields hg hf (by rw [hentry.1, hname, hn])
    rw [← hgf, hentry.2, Value.map.injEq] at hfq
    rw [← hfq] at hq'
    exact ih hq'
  | items hinner hf _ ih =>
    obtain ⟨f', hf', hform⟩ := (isFormOf_of_formOfFields h).items _ hinner
    rw [hform, Option.some.injEq, Value.map.injEq] at hf
    rw [hf] at hf'
    exact ih hf'

/-- Every node that is reached has a node of the form in its place. -/
theorem exists_faces {schema form node : Fields} (hreaches : Reaches method schema node)
    (h : formOfFields method schema = .ok form) : ∃ made, Faces method schema form node made := by
  induction hreaches generalizing form with
  | here => exact ⟨form, .here _ _⟩
  | property hproperties hmem hvisible _ ih =>
    obtain ⟨fields, hfields, hform, -⟩ := (isFormOf_of_formOfFields h).properties _ hproperties
    obtain ⟨f, hf, rfl, hname, hschema⟩ := exists_field_of_mem hfields hmem hvisible
    obtain ⟨q, hq, hfq⟩ := formOfProperty_map_eq_ok.1 hschema
    obtain ⟨made, hmade⟩ := ih hq
    have hmem' : (Scalar.str (Naming.field f.origin), Value.map q) ∈ sortedProperties fields :=
      mem_sortedProperties.2 ⟨f, hf, by rw [hname, hfq]⟩
    exact ⟨made, .property hproperties hmem hvisible hform hmem' hmade⟩
  | items hinner _ ih =>
    obtain ⟨f, hf, hform⟩ := (isFormOf_of_formOfFields h).items _ hinner
    obtain ⟨made, hmade⟩ := ih hf
    exact ⟨made, .items hinner hform hmade⟩

/-! ### The nodes of a form -/

/-- Whether a node is one of those that a form holds: the form itself, and the mappings among its
properties and under its items. -/
inductive IsNodeOf : (form made : Fields) → Prop
  | here (form : Fields) : IsNodeOf form form
  | property {form qs q made : Fields} {k : Scalar} :
      Fields.get? "properties" form = some (.map qs) → (k, .map q) ∈ qs → IsNodeOf q made →
      IsNodeOf form made
  | items {form f made : Fields} :
      Fields.get? "items" form = some (.map f) → IsNodeOf f made → IsNodeOf form made

theorem isNodeOf_of_faces {schema form node made : Fields}
    (h : Faces method schema form node made) : IsNodeOf form made := by
  induction h with
  | here schema form => exact .here form
  | property _ _ _ hqs hmem _ ih => exact .property hqs hmem ih
  | items _ hf _ ih => exact .items hf ih

/-- The properties of a form are the fields that a mapping of properties makes. -/
theorem exists_fields_of_get? {schema form qs : Fields} (h : formOfFields method schema = .ok form)
    (hqs : Fields.get? "properties" form = some (.map qs)) : ∃ ps fields,
      mapping? "properties" schema = some ps ∧ formFields method [] ps = .ok fields ∧
        qs = sortedProperties fields := by
  have hform := isFormOf_of_formOfFields h
  cases hps : mapping? "properties" schema with
  | none =>
    rw [hform.noProperties hps] at hqs
    rw [mapping?_of_get? hqs] at hps
    cases hps
  | some ps =>
    obtain ⟨fields, hfields, hget, -⟩ := hform.properties ps hps
    rw [hget, Option.some.injEq, Value.map.injEq] at hqs
    exact ⟨ps, fields, rfl, hfields, hqs.symm⟩

/-- The items of a form are the form of a mapping under the items. -/
theorem exists_items_of_get? {schema form f : Fields} (h : formOfFields method schema = .ok form)
    (hf : Fields.get? "items" form = some (.map f)) : ∃ inner,
      mapping? "items" schema = some inner ∧ formOfFields method inner = .ok f := by
  cases hinner : mapping? "items" schema with
  | none =>
    rw [get?_items_formOfFields h hinner] at hf
    rw [mapping?_of_get? hf] at hinner
    cases hinner
  | some inner =>
    obtain ⟨f', hf', hget⟩ := (isFormOf_of_formOfFields h).items inner hinner
    rw [hget, Option.some.injEq, Value.map.injEq] at hf
    rw [hf] at hf'
    exact ⟨inner, rfl, hf'⟩

/-- Only a mapping has a mapping for its form. -/
theorem formOfProperty_eq_ok_map {v : Value} {q : Fields} :
    formOfProperty method v = .ok (.map q) ↔ ∃ p, v = .map p ∧ formOfFields method p = .ok q := by
  cases v with
  | map p =>
    rw [formOfProperty_map_eq_ok]
    simp
  | _ => simp [formOfProperty]

/-- Every node of a form has the place of a node of the schema. -/
theorem exists_faces_of_isNodeOf {schema form made : Fields} (hmade : IsNodeOf form made)
    (h : formOfFields method schema = .ok form) : ∃ node, Faces method schema form node made := by
  induction hmade generalizing schema with
  | here form => exact ⟨schema, .here schema form⟩
  | property hqs hmem _ ih =>
    obtain ⟨ps, fields, hps, hfields, rfl⟩ := exists_fields_of_get? h hqs
    obtain ⟨f, hf, hentry⟩ := mem_sortedProperties.1 hmem
    obtain ⟨v, hv, hshown, hname, hschema⟩ := exists_property_of_mem hfields hf
    rw [Prod.mk.injEq] at hentry
    rw [hentry.2] at hschema
    obtain ⟨p, rfl, hp⟩ := formOfProperty_eq_ok_map.1 hschema
    obtain ⟨node, hnode⟩ := ih hp
    rw [← hentry.1, hname] at hmem
    exact ⟨node, .property hps hv hshown hqs hmem hnode⟩
  | items hf _ ih =>
    obtain ⟨inner, hinner, hform⟩ := exists_items_of_get? h hf
    obtain ⟨node, hnode⟩ := ih hform
    exact ⟨node, .items hinner hf hnode⟩

end NodeForge.Schema
