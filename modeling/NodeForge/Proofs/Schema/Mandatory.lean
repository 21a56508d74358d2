import NodeForge.Proofs.Schema.Nodes

/-!
# The mandatory fields of a form

A schema lists the names of its required properties, and its form lists their folded names. The two
lists are not tied to the properties: a field is mandatory as soon as some listed name folds into
its own, be it that of a hidden property or of none (`mem_requiredNames`). So the form agrees with
its schema about what is mandatory only where no visible property borrows a name in this way
(`mandatory_iff_of_faces`).
-/

namespace NodeForge.Schema

variable {method : Text}

/-- A name is listed in a form if some name that the schema lists folds into it, and there is a
field of this name. -/
theorem mem_requiredNames {fields : List FormField} {rs : List Value} {names : List Text}
    (h : requiredNames fields rs = .ok names) {k : Text} :
    k ∈ names ↔ (∃ r, Value.str r ∈ rs ∧ Naming.field r = k) ∧ ∃ f ∈ fields, f.name = k := by
  obtain ⟨folded, hfolded, h⟩ := Outcome.bind_eq_ok.1 h
  rw [Outcome.pure_eq_ok] at h
  have hfold : ∀ {v : Value} {t : Text}, Naming.field <$> v.asText .wrongKind = .ok t →
      ∃ r, v = .str r ∧ Naming.field r = t := by
    intro v t hv
    obtain ⟨r, hr, ht⟩ := Outcome.map_eq_ok.1 hv
    cases v with
    | scalar s => exact ⟨r, by rw [Outcome.asText_eq_ok.1 hr], ht⟩
    | _ => cases hr
  have hmem : k ∈ folded ↔ ∃ r, Value.str r ∈ rs ∧ Naming.field r = k := by
    constructor
    · intro hk
      obtain ⟨v, hv, hvk⟩ := Outcome.exists_left_of_mem (Outcome.mapM_eq_ok.1 hfolded) hk
      obtain ⟨r, rfl, hr⟩ := hfold hvk
      exact ⟨r, hv, hr⟩
    · rintro ⟨r, hr, hrk⟩
      obtain ⟨t, ht, hrt⟩ := Outcome.exists_ok_of_mem hfolded hr
      obtain ⟨r', hr', ht'⟩ := hfold hrt
      cases hr'
      rwa [← hrk, ht']
  rw [← h, List.mem_filter, Entries.mem_distinct, hmem, List.any_eq_true]
  simp only [beq_iff_eq]

theorem nodup_of_requiredNames {fields : List FormField} {rs : List Value} {names : List Text}
    (h : requiredNames fields rs = .ok names) : names.Nodup := by
  obtain ⟨folded, -, h⟩ := Outcome.bind_eq_ok.1 h
  rw [Outcome.pure_eq_ok] at h
  rw [← h]
  exact (Entries.nodup_distinct folded).filter _

/-- Whether a visible property that is not listed as required borrows the name of something else
that is: the two names fold into one. -/
def Borrows (method : Text) (properties : Fields) (rs : List Value) : Prop :=
  ∃ n ∈ visibleNames method properties, Value.str n ∉ rs ∧
    ∃ r, Value.str r ∈ rs ∧ Naming.field r = Naming.field n

/-- The mandatory fields of a single node: those into whose names a listed name folds. -/
theorem mandatory_of_formOfFields {node made properties : Fields} {rs : List Value}
    (h : formOfFields method node = .ok made)
    (hproperties : mapping? "properties" node = some properties)
    (hrs : Fields.get? "required" node = some (.list rs)) :
    ∃ names, Fields.get? "required" made = some (Value.texts names) ∧
      ∀ n ∈ visibleNames method properties,
        (Naming.field n ∈ names ↔ ∃ r, Value.str r ∈ rs ∧ Naming.field r = Naming.field n) := by
  obtain ⟨fields, hfields, -, hrequired⟩ :=
    (isFormOf_of_formOfFields h).properties properties hproperties
  obtain ⟨names, hnames, hmade⟩ := hrequired rs hrs
  refine ⟨names, hmade, fun n hn => ?_⟩
  rw [mem_requiredNames hnames]
  -- a visible property has a field
  have hfield : ∃ f ∈ fields, f.name = Naming.field n := by
    obtain ⟨v, hmem, hshown⟩ := mem_visibleNames.1 hn
    obtain ⟨f, hf, hk, hname, -⟩ := exists_field_of_mem hfields hmem hshown
    rw [Scalar.str.injEq] at hk
    exact ⟨f, hf, by rw [hname, hk]⟩
  exact ⟨fun hboth => hboth.1, fun hfolds => ⟨hfolds, hfield⟩⟩

/-- **What is mandatory.** At every node that is reached, a field is listed as mandatory exactly if
some name that the schema lists folds into its own. This is the same as that the schema lists the
property it comes from exactly if no visible property borrows a name. -/
theorem mandatory_iff_of_faces {schema form : Fields} (h : formOfFields method schema = .ok form)
    {node made : Fields} (hfaces : Faces method schema form node made) {properties : Fields}
    (hproperties : mapping? "properties" node = some properties) {rs : List Value}
    (hrs : Fields.get? "required" node = some (.list rs)) :
    ∃ names, Fields.get? "required" made = some (Value.texts names) ∧
      (∀ n ∈ visibleNames method properties,
        (Naming.field n ∈ names ↔ ∃ r, Value.str r ∈ rs ∧ Naming.field r = Naming.field n)) ∧
      ((∀ n ∈ visibleNames method properties, (Naming.field n ∈ names ↔ Value.str n ∈ rs)) ↔
        ¬ Borrows method properties rs) := by
  obtain ⟨names, hnames, hfolds⟩ :=
    mandatory_of_formOfFields (formOfFields_of_faces hfaces h) hproperties hrs
  refine ⟨names, hnames, hfolds, fun hexact => ?_, fun hno n hn => ?_⟩
  · rintro ⟨n, hn, hunlisted, hborrowed⟩
    exact hunlisted ((hexact n hn).1 ((hfolds n hn).2 hborrowed))
  · rw [hfolds n hn]
    constructor
    · intro hborrowed
      by_contra hunlisted
      exact hno ⟨n, hn, hunlisted, hborrowed⟩
    · exact fun hlisted => ⟨n, hlisted, rfl⟩

/-- The schema of a user, whose number is required and hidden, and can be given under another
spelling. -/
def userSchema : Fields :=
  [(.str "type", .str "object"),
    (.str "properties", .record [
      ("user_id", .record [("readOnly", .bool true)]),
      ("userId", .record [("type", .str "string")])]),
    (.str "required", .list [.str "user_id"])]

theorem mandatory_iff_userSchema : ∃ form made names,
    formOfFields "post" userSchema = .ok form ∧ Faces "post" userSchema form userSchema made ∧
      Fields.get? "required" made = some (Value.texts names) ∧
      ∀ properties, mapping? "properties" userSchema = some properties →
        ((∀ n ∈ visibleNames "post" properties,
            (Naming.field n ∈ names ↔ Value.str n ∈ [Value.str "user_id"])) ↔
          ¬ Borrows "post" properties [Value.str "user_id"]) := by
  obtain ⟨form, hform⟩ := Outcome.isOk_iff.1
    (by decide +kernel : (formOfFields "post" userSchema).isOk = true)
  have hfaces : Faces "post" userSchema form userSchema form := .here userSchema form
  obtain ⟨names, hnames, -, hiff⟩ := mandatory_iff_of_faces hform hfaces rfl rfl
  refine ⟨form, form, names, hform, hfaces, hnames, fun properties hproperties => ?_⟩
  cases hproperties
  exact hiff

/-- In this form a field is mandatory though its schema does not list it as required. -/
theorem not_mandatory_userSchema : ∃ form names properties,
    formOfFields "post" userSchema = .ok form ∧
      mapping? "properties" userSchema = some properties ∧
      Fields.get? "required" userSchema = some (.list [.str "user_id"]) ∧
      Fields.get? "required" form = some (Value.texts names) ∧
      ("userId" : Text) ∈ visibleNames "post" properties ∧
      Naming.field "userId" ∈ names ∧ Value.str "userId" ∉ [Value.str "user_id"] := by
  obtain ⟨form, hform⟩ := Outcome.isOk_iff.1
    (by decide +kernel : (formOfFields "post" userSchema).isOk = true)
  obtain ⟨names, hnames, hfolds⟩ := mandatory_of_formOfFields hform rfl rfl
  have hvisible : ("userId" : Text) ∈ visibleNames "post" [
      (.str "user_id", .record [("readOnly", .bool true)]),
      (.str "userId", .record [("type", .str "string")])] := by
    decide +kernel
  have hunlisted : Value.str "userId" ∉ [Value.str "user_id"] := by
    have hne : ("userId" : Text) ≠ "user_id" := by decide
    simpa using hne
  refine ⟨form, names, _, hform, rfl, rfl, hnames, hvisible, ?_, hunlisted⟩
  exact (hfolds _ hvisible).2 ⟨"user_id", by simp, by decide +kernel⟩

end NodeForge.Schema
