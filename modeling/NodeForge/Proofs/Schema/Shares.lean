import Mathlib.Data.List.Perm.Basic
import NodeForge.Proofs.Schema.Nodes

/-!
# Mandatory and optional properties

`splitRequired` shares the properties of a form out into two rows by the names that the form lists
as required. The properties of a form have different names (`nodup_keys_propertiesIn`), so neither
row has a property of the other one, and together they have all of them (`shares_of_splitRequired`).
-/

namespace NodeForge.Schema

/-- The properties of a schema, where these are a mapping. -/
def propertiesIn (schema : Fields) : Fields := (Fields.get "properties" schema).fields?.getD []

/-- Whether two rows share out the properties of a form: the first one has those that the form lists
as required, the second one the others, both in the order of the form. -/
structure Shares (form mandatory optional : Fields) : Prop where
  inOrder : mandatory.Sublist (propertiesIn form) ∧ optional.Sublist (propertiesIn form)
  whole : (mandatory ++ optional).Perm (propertiesIn form)
  apart : (Entries.keys mandatory).Disjoint (Entries.keys optional)
  listed : ∃ rs, ((Fields.get "required" form).orElse (.list [])).members = .ok rs ∧
    ∀ e ∈ propertiesIn form, (e ∈ mandatory ↔ Value.scalar e.1 ∈ rs)

/-! ### The properties of a form -/

theorem propertiesIn_eq_of_get? {schema ps : Fields}
    (h : Fields.get? "properties" schema = some (.map ps)) : propertiesIn schema = ps := by
  rw [propertiesIn, Fields.get, h]
  rfl

theorem propertiesIn_eq_nil {schema : Fields} (h : mapping? "properties" schema = none) :
    propertiesIn schema = [] := by
  rw [propertiesIn, Fields.get]
  cases hget : Fields.get? "properties" schema with
  | none => rfl
  | some v =>
    cases v with
    | map ps =>
      rw [mapping?_of_get? hget] at h
      cases h
    | _ => rfl

variable {method : Text} {schema form : Fields}

/-- The properties of a form are the sorted fields of its schema, if it has any. -/
theorem propertiesIn_eq_of_formOfFields (h : formOfFields method schema = .ok form) :
    propertiesIn form = [] ∨ ∃ properties fields,
      formFields method [] properties = .ok fields ∧
        propertiesIn form = sortedProperties fields := by
  have hform := isFormOf_of_formOfFields h
  cases hproperties : mapping? "properties" schema with
  | none =>
    left
    rw [propertiesIn, Fields.get, hform.noProperties hproperties]
    exact propertiesIn_eq_nil hproperties
  | some properties =>
    right
    obtain ⟨fields, hfields, hget, -⟩ := hform.properties properties hproperties
    exact ⟨properties, fields, hfields, propertiesIn_eq_of_get? hget⟩

theorem nodup_keys_propertiesIn (h : formOfFields method schema = .ok form) :
    (Entries.keys (propertiesIn form)).Nodup := by
  rcases propertiesIn_eq_of_formOfFields h with hnil | ⟨properties, fields, hfields, hsorted⟩
  · rw [hnil]
    exact List.nodup_nil
  · rw [hsorted]
    exact nodup_keys_sortedProperties hfields

theorem exists_str_of_mem_propertiesIn (h : formOfFields method schema = .ok form)
    {e : Scalar × Value} (he : e ∈ propertiesIn form) : ∃ n, e.1 = .str n := by
  rcases propertiesIn_eq_of_formOfFields h with hnil | ⟨properties, fields, -, hsorted⟩
  · rw [hnil] at he
    cases he
  · rw [hsorted, mem_sortedProperties] at he
    obtain ⟨f, -, rfl⟩ := he
    exact ⟨f.name, rfl⟩

/-! ### Sharing out -/

theorem asMember_eq_some {v : Value} {k : Scalar} : v.asMember = .ok (some k) ↔ v = .scalar k := by
  cases v with
  | pair a b => cases a <;> cases b <;> simp [Value.asMember, Value.asKey]
  | _ => simp [Value.asMember, Value.asKey]

/-- Of the names that are listed, a text is matched by itself alone. -/
theorem any_beq_iff {rs : List Value} {names : List (Option Scalar)}
    (h : rs.mapM Value.asMember = .ok names) {n : Text} :
    (names.any fun name => name == some (.str n)) = true ↔ Value.str n ∈ rs := by
  rw [List.any_eq_true]
  constructor
  · rintro ⟨name, hname, hsame⟩
    obtain ⟨v, hv, hvname⟩ := Outcome.exists_left_of_mem (Outcome.mapM_eq_ok.1 h) hname
    cases name with
    | none => cases hsame
    | some k =>
      have hk : k = .str n := Scalar.beq_str_iff.1 hsame
      rw [asMember_eq_some, hk] at hvname
      rwa [hvname] at hv
  · intro hn
    obtain ⟨name, hname, hmember⟩ := Outcome.exists_ok_of_mem h hn
    rw [asMember_eq_some.2 rfl, Except.ok.injEq] at hmember
    refine ⟨name, hname, ?_⟩
    rw [← hmember]
    exact (Scalar.beq_str_iff.2 rfl : (Scalar.str n == Scalar.str n) = true)

/-- What is gone through for properties that are no mapping is empty. -/
theorem fields_orElse_eq_ok {v : Value} {fields : Fields}
    (h : (v.orElse (.map [])).fields = .ok fields) : fields = v.fields?.getD [] := by
  rw [Value.orElse] at h
  split at h
  · rw [Outcome.orFault_eq_ok.1 h]
    rfl
  · next hfalse =>
    cases h
    cases v with
    | map es =>
      cases es with
      | nil => rfl
      | cons e es => exact absurd rfl hfalse
    | _ => rfl

/-- **Sharing out.** What the split of a form gives are its properties, those that it lists as
required and the others. -/
theorem shares_of_splitRequired {mandatory optional : Fields}
    (hform : formOfFields method schema = .ok form)
    (h : splitRequired (.map form) = .ok (mandatory, optional)) :
    Shares form mandatory optional := by
  obtain ⟨properties, hproperties, h⟩ := Outcome.bind_eq_ok.1 h
  cases hproperties
  obtain ⟨required, hrequired, h⟩ := Outcome.bind_eq_ok.1 h
  cases hrequired
  obtain ⟨rs, hrs, h⟩ := Outcome.bind_eq_ok.1 h
  obtain ⟨names, hnames, h⟩ := Outcome.bind_eq_ok.1 h
  obtain ⟨fields, hfields, h⟩ := Outcome.bind_eq_ok.1 h
  have heq : fields = propertiesIn form := fields_orElse_eq_ok hfields
  rw [Outcome.pure_eq_ok, List.partition_eq_filter_filter, Prod.mk.injEq, heq] at h
  obtain ⟨rfl, rfl⟩ := h
  have hwhole := List.filter_append_perm (fun e => names.any fun n => n == some e.1)
    (propertiesIn form)
  refine ⟨⟨List.filter_sublist, List.filter_sublist⟩, hwhole, ?_, rs, hrs, ?_⟩
  · -- a common key would be that of one property, which is in one row only
    intro k hmandatory hoptional
    obtain ⟨e, he, rfl⟩ := List.mem_map.1 hmandatory
    obtain ⟨e', he', hkey⟩ := List.mem_map.1 hoptional
    obtain ⟨hmem, hlisted⟩ := List.mem_filter.1 he
    obtain ⟨hmem', hunlisted⟩ := List.mem_filter.1 he'
    have hsame : e' = e := List.inj_on_of_nodup_map (nodup_keys_propertiesIn hform) hmem' hmem hkey
    rw [hsame] at hunlisted
    simp [hlisted] at hunlisted
  · intro e he
    obtain ⟨n, hn⟩ := exists_str_of_mem_propertiesIn hform he
    rw [List.mem_filter, hn, any_beq_iff hnames]
    exact and_iff_right he

end NodeForge.Schema
