import Mathlib.Data.Set.Function
import NodeForge.Proofs.Schema.Nodes

/-!
# When a schema has no form

Two visible properties whose names fold into one cannot both become fields. This is all that keeps a
readable schema from having a form, at whichever of its nodes it happens, and where it does not
happen no visible property is lost (`refused_iff_clashes`).
-/

namespace NodeForge.Schema

variable {method : Text}

/-! ### One node -/

/-- Whether the properties of a form are the visible ones of a schema under their folded names, each
with the form of its own schema. -/
structure Renames (method : Text) (properties renamed : Fields) : Prop where
  bijective : Set.BijOn Naming.field {n | n ∈ visibleNames method properties}
    {k | Scalar.str k ∈ Entries.keys renamed}
  kept : ∀ n v, (Scalar.str n, v) ∈ properties → isShown method v = true →
    ∃ w, formOfProperty method v = .ok w ∧ (Scalar.str (Naming.field n), w) ∈ renamed
  origin : ∀ e ∈ renamed, ∃ n v, (Scalar.str n, v) ∈ properties ∧ isShown method v = true ∧
    e.1 = .str (Naming.field n) ∧ formOfProperty method v = .ok e.2
  once : (Entries.keys renamed).Nodup

theorem renames_of_formFields {properties : Fields} {fields : List FormField}
    (h : formFields method [] properties = .ok fields) :
    Renames method properties (sortedProperties fields) := by
  have hkept : ∀ n v, (Scalar.str n, v) ∈ properties → isShown method v = true →
      ∃ w, formOfProperty method v = .ok w ∧
        (Scalar.str (Naming.field n), w) ∈ sortedProperties fields := by
    intro n v hmem hshown
    obtain ⟨f, hf, hn, hname, hschema⟩ := exists_field_of_mem h hmem hshown
    rw [Scalar.str.injEq] at hn
    exact ⟨f.schema, hschema, mem_sortedProperties.2 ⟨f, hf, by rw [hname, hn]⟩⟩
  have horigin : ∀ e ∈ sortedProperties fields, ∃ n v, (Scalar.str n, v) ∈ properties ∧
      isShown method v = true ∧ e.1 = .str (Naming.field n) ∧
        formOfProperty method v = .ok e.2 := by
    intro e he
    obtain ⟨f, hf, rfl⟩ := mem_sortedProperties.1 he
    obtain ⟨v, hmem, hshown, hname, hschema⟩ := exists_property_of_mem h hf
    exact ⟨f.origin, v, hmem, hshown, by rw [hname], hschema⟩
  refine ⟨⟨?_, ?_, ?_⟩, hkept, horigin, nodup_keys_sortedProperties h⟩
  · intro n hn
    obtain ⟨v, hmem, hshown⟩ := mem_visibleNames.1 hn
    obtain ⟨w, -, hw⟩ := hkept n v hmem hshown
    exact List.mem_map.2 ⟨_, hw, rfl⟩
  -- the folded names are those of the fields, and these are all different
  · have hnodup := (formFields_spec h).2.1
    rw [map_name_eq h] at hnodup
    intro m hm n hn hsame
    exact List.inj_on_of_nodup_map hnodup hm hn hsame
  · intro k hk
    obtain ⟨e, he, hkey⟩ := List.mem_map.1 hk
    obtain ⟨n, v, hmem, hshown, hname, -⟩ := horigin e he
    rw [hkey, Scalar.str.injEq] at hname
    exact ⟨n, mem_visibleNames.2 ⟨v, hmem, hshown⟩, hname.symm⟩

theorem not_clashes_of_formOfFields {node made : Fields}
    (h : formOfFields method node = .ok made) : ¬ Clashes method node := by
  rintro ⟨properties, hproperties, m, n, hsub, hsame⟩
  obtain ⟨fields, hfields, -⟩ := (isFormOf_of_formOfFields h).properties properties hproperties
  have hnodup := (formFields_spec hfields).2.1
  rw [map_name_eq hfields] at hnodup
  have htwo := hnodup.sublist (hsub.map Naming.field)
  rw [List.map_cons, List.map_singleton, hsame] at htwo
  simp at htwo

/-! ### All nodes -/

/-- A readable schema without a form has a clash at one of its nodes, and is refused for a clash. -/
theorem clashes_of_error {schema : Fields} {e : Failure}
    (hread : ∀ node, Reaches method schema node → IsReadable node)
    (h : formOfFields method schema = .error e) :
    (∃ cause, e = .spec cause) ∧ ∃ node, Reaches method schema node ∧ Clashes method node := by
  induction schema using induction_on generalizing e with
  | step schema hproperties hitems =>
    rcases error_of_formOfFields (hread schema (.here schema)) h with
      ⟨properties, hps, h⟩ | ⟨inner, hinner, h⟩
    · have hnames := (hread schema (.here schema)).names properties hps
      rcases error_of_formFields hnames h with ⟨cause, hcause, hclash⟩ | ⟨k, p, hmem, hvisible, hp⟩
      · refine ⟨⟨cause, hcause⟩, schema, .here schema, properties, hps, ?_⟩
        rcases hclash with ⟨n, -, htaken⟩ | hclash
        -- at the start no names are in use
        · exact absurd rfl htaken
        · exact hclash
      · have hreach : ∀ {node}, Reaches method p node → Reaches method schema node :=
          fun hnode => .property hps hmem hvisible hnode
        obtain ⟨hcause, node, hnode, hclash⟩ :=
          hproperties properties hps k p hmem (fun node hnode => hread node (hreach hnode)) hp
        exact ⟨hcause, node, hreach hnode, hclash⟩
    · obtain ⟨hcause, node, hnode, hclash⟩ :=
        hitems inner hinner (fun node hnode => hread node (.items hinner hnode)) h
      exact ⟨hcause, node, .items hinner hnode, hclash⟩

/-- **Refused for a clash.** A readable schema is refused exactly if at one of its nodes the names
of two visible properties fold into one. Otherwise it has a form, in which every node that is
reached has its own form in its place, with all its visible properties, each under its folded name.
-/
theorem refused_iff_clashes {schema : Fields}
    (hread : ∀ node, Reaches method schema node → IsReadable node) :
    ((∃ cause, formOfFields method schema = .error (.spec cause)) ↔
      ∃ node, Reaches method schema node ∧ Clashes method node) ∧
    ((¬ ∃ node, Reaches method schema node ∧ Clashes method node) →
      ∃ form, formOfFields method schema = .ok form ∧
        (∀ node, Reaches method schema node → ∃ made, Faces method schema form node made) ∧
        ∀ node made, Faces method schema form node made →
          formOfFields method node = .ok made ∧
            ∀ properties, mapping? "properties" node = some properties →
              ∃ renamed, Fields.get? "properties" made = some (.map renamed) ∧
                Renames method properties renamed) := by
  cases hform : formOfFields method schema with
  | error e =>
    obtain ⟨⟨cause, rfl⟩, hclash⟩ := clashes_of_error hread hform
    exact ⟨iff_of_true ⟨cause, rfl⟩ hclash, fun hno => absurd hclash hno⟩
  | ok form =>
    refine ⟨iff_of_false (by simp) ?_, fun _ => ⟨form, rfl, ?_, fun node made hmade => ?_⟩⟩
    · rintro ⟨node, hnode, hclash⟩
      obtain ⟨made, hmade⟩ := exists_faces hnode hform
      exact not_clashes_of_formOfFields (formOfFields_of_faces hmade hform) hclash
    · intro node hnode
      exact exists_faces hnode hform
    · have hnode := formOfFields_of_faces hmade hform
      refine ⟨hnode, fun properties hproperties => ?_⟩
      obtain ⟨fields, hfields, hrenamed, -⟩ :=
        (isFormOf_of_formOfFields hnode).properties properties hproperties
      exact ⟨sortedProperties fields, hrenamed, renames_of_formFields hfields⟩

/-- The schema of an account, in which a hidden property has the folded name of a visible one, and a
property has properties of its own. -/
def accountSchema : Fields :=
  [(.str "type", .str "object"),
    (.str "required", .list [.str "userId"]),
    (.str "properties", .record [
      ("user_id", .record [("readOnly", .bool true)]),
      ("userId", .record [("type", .str "string")]),
      ("home town", .record [("properties", .record [("zip-code", .record [
        ("enum", .list [.int 1])])])])])]

theorem isReadable_accountSchema (node : Fields) (h : Reaches "post" accountSchema node) :
    IsReadable node := by
  have hall : ∀ v ∈ (Value.map accountSchema).parts, ∀ es ∈ v.fields?, IsReadable es := by
    decide +kernel
  exact hall _ (map_mem_parts_of_reaches h) node rfl

theorem refused_iff_clashes_accountSchema :
    (∀ node, Reaches "post" accountSchema node → IsReadable node) ∧
      ∃ form, formOfFields "post" accountSchema = .ok form ∧
        (∀ node, Reaches "post" accountSchema node →
          ∃ made, Faces "post" accountSchema form node made) ∧
        ∀ node made, Faces "post" accountSchema form node made →
          formOfFields "post" node = .ok made ∧
            ∀ properties, mapping? "properties" node = some properties →
              ∃ renamed, Fields.get? "properties" made = some (.map renamed) ∧
                Renames "post" properties renamed := by
  refine ⟨isReadable_accountSchema, (refused_iff_clashes isReadable_accountSchema).2 ?_⟩
  intro hclash
  obtain ⟨cause, hcause⟩ := (refused_iff_clashes isReadable_accountSchema).1.2 hclash
  have hok : (formOfFields "post" accountSchema).isOk = true := by decide +kernel
  rw [hcause] at hok
  cases hok

end NodeForge.Schema
