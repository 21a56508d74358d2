import NodeForge.Proofs.Document.Entries
import NodeForge.Proofs.Document.Parts
import NodeForge.Proofs.Document.Sameness
import NodeForge.Proofs.Schema.Form

/-!
# The steps to a form

The form of a schema is made in three steps: the choices, the properties, the items. Of its entries
only the mappings under `properties` and `items` lead to other schemas (`formParts_eq`), so the form
of a schema is an equation between the forms of the parts (`formOfFields_eq`). What each step can do
is said once (`enumToOptions_cases`, `withProperties_cases`, `withItems_cases`). From this follows
which keys a form takes over (`exists_base`), and what it makes of the properties, of the mandatory
names and of the items (`IsFormOf`). What can keep it from making anything is said by
`error_of_formOfFields`.
-/

namespace NodeForge

theorem Fields.get?_put (k key : Text) (value : Value) (fields : Fields) :
    Fields.get? k (Fields.put key value fields) =
      if k = key then some value else Fields.get? k fields := by
  show (Entries.put (.str key) value fields).lookup (.str k) = _
  rw [Entries.lookup_put, Scalar.beq_str]
  by_cases h : k = key
  · rw [if_pos h, h, BEq.refl, if_pos rfl]
  · rw [if_neg h, beq_eq_false_iff_ne.2 h]
    rfl

namespace Schema

/-! ### Mappings under a key -/

/-- The mapping that stands under a key, if one does. -/
def mapping? (key : Text) (schema : Fields) : Option Fields :=
  schema.findSome? fun e => if e.1 == .str key then e.2.fields? else none

theorem mapping?_cons_self (key : Text) (v : Value) (rest : Fields) :
    mapping? key ((.str key, v) :: rest) = v.fields?.or (mapping? key rest) := by
  rw [mapping?, List.findSome?_cons, if_pos (BEq.refl _)]
  cases v.fields? <;> rfl

theorem mapping?_cons_of_ne {key : Text} {k : Scalar} (h : k ≠ .str key) (v : Value)
    (rest : Fields) : mapping? key ((k, v) :: rest) = mapping? key rest := by
  have hne : ¬ (k == Scalar.str key) = true := fun hbeq => h (Scalar.beq_str_iff.1 hbeq)
  rw [mapping?, List.findSome?_cons, if_neg hne]
  rfl

/-- What is no mapping is passed over. -/
theorem mapping?_cons_of_fields?_eq_none (key : Text) (k : Scalar) {v : Value}
    (h : v.fields? = none) (rest : Fields) : mapping? key ((k, v) :: rest) = mapping? key rest := by
  by_cases hk : k = .str key
  · rw [hk, mapping?_cons_self, h, Option.none_or]
  · exact mapping?_cons_of_ne hk v rest

/-- A mapping that is found under a key is the one that stands there. -/
theorem mapping?_of_get? {key : Text} {schema es : Fields}
    (h : Fields.get? key schema = some (.map es)) : mapping? key schema = some es := by
  change schema.lookup (.str key) = some (.map es) at h
  induction schema with
  | nil => cases h
  | cons e rest ih =>
    obtain ⟨k, v⟩ := e
    rw [List.lookup_cons] at h
    split at h
    · next hk =>
      rw [Option.some.injEq] at h
      rw [Scalar.str_beq_iff.1 hk, mapping?_cons_self, h]
      rfl
    · next hk =>
      rw [mapping?_cons_of_ne fun heq => by simp [heq] at hk]
      exact ih h

theorem sizeOf_lt_of_mapping? {key : Text} {schema es : Fields}
    (h : mapping? key schema = some es) : sizeOf es < sizeOf schema := by
  obtain ⟨e, he, hes⟩ := List.exists_of_findSome?_eq_some h
  split at hes
  · have hlt := List.sizeOf_lt_of_mem he
    obtain ⟨k, v⟩ := e
    rw [Value.fields?_eq_some] at hes
    dsimp only at hes
    rw [hes] at hlt
    simp only [Prod.mk.sizeOf_spec, Value.map.sizeOf_spec] at hlt
    omega
  · cases hes

theorem sizeOf_lt_of_mem {k : Scalar} {es schema : Fields} (h : (k, Value.map es) ∈ schema) :
    sizeOf es < sizeOf schema := by
  have hlt := List.sizeOf_lt_of_mem h
  simp only [Prod.mk.sizeOf_spec, Value.map.sizeOf_spec] at hlt
  omega

/-! ### What entries contribute -/

theorem Keyword.ofKey?_eq_some {key : Scalar} {word : Keyword} :
    Keyword.ofKey? key = some word ↔ key = .str word.name := by
  constructor
  · intro h
    have hbeq := List.find?_some h
    exact Scalar.beq_str_iff.1 hbeq
  · rintro rfl
    cases word <;> rfl

/-- Of all entries only the mappings under `properties` and `items` contribute to a form. -/
theorem formParts_eq (method : Text) (schema : Fields) :
    formParts method schema = ⟨(mapping? "properties" schema).map (formFields method []),
      (mapping? "items" schema).map (formOfFields method)⟩ := by
  induction schema with
  | nil => rfl
  | cons e rest ih =>
    obtain ⟨k, v⟩ := e
    cases hv : v.fields? with
    | none =>
      have hno : ∀ es, v ≠ .map es := by
        rintro es rfl
        cases hv
      rw [mapping?_cons_of_fields?_eq_none _ _ hv, mapping?_cons_of_fields?_eq_none _ _ hv, ← ih]
      exact formParts.eq_4 method k rest v (fun es _ => hno es) (fun es _ => hno es)
    | some es =>
      rw [Value.fields?_eq_some] at hv
      subst hv
      by_cases hp : k = .str "properties"
      · have hitems : k ≠ .str "items" := by
          rw [hp]
          exact fun heq => absurd (Scalar.str.inj heq) (by decide)
        rw [mapping?_cons_of_ne hitems,
          formParts.eq_2 method k rest es (Keyword.ofKey?_eq_some.2 hp), ih, hp,
          mapping?_cons_self]
        rfl
      · rw [mapping?_cons_of_ne hp]
        by_cases hi : k = .str "items"
        · rw [formParts.eq_3 method k rest es (Keyword.ofKey?_eq_some.2 hi), ih, hi,
            mapping?_cons_self]
          rfl
        · rw [mapping?_cons_of_ne hi, ← ih]
          refine formParts.eq_4 method k rest _ (fun _ hword _ => ?_) (fun _ hword _ => ?_)
          · exact hp (Keyword.ofKey?_eq_some.1 hword)
          · exact hi (Keyword.ofKey?_eq_some.1 hword)

/-! ### The steps to a form -/

/-- Writes the fields for the properties of a schema into its form, and with them the names of the
mandatory ones where the schema lists its required properties. -/
def putProperties (schema : Fields) (fields : List FormField) (form : Fields) :
    Except Fault Fields :=
  let form := Fields.put "properties" (.map (sortedProperties fields)) form
  match Fields.get? "required" schema with
  | some (.list required) => do
    return Fields.put "required" (Value.texts (← requiredNames fields required)) form
  | _ => .ok form

/-- The form with what the properties of its schema make, where these are a mapping. -/
def withProperties (method : Text) (schema form : Fields) : Except Failure Fields :=
  match mapping? "properties" schema with
  | none => .ok form
  | some properties => do
    let fields ← formFields method [] properties
    putProperties schema fields form

/-- The form with the form of the items of its schema, where these are a mapping. -/
def withItems (method : Text) (schema form : Fields) : Except Failure Fields :=
  match mapping? "items" schema with
  | none => .ok form
  | some items => do
    let inner ← formOfFields method items
    return Fields.put "items" (.map inner) form

/-- The three steps to a form: the choices, the properties, the items. -/
theorem formOfFields_eq (method : Text) (schema : Fields) :
    formOfFields method schema = (do
      let base ← enumToOptions schema
      let named ← withProperties method schema base
      withItems method schema named) := by
  rw [formOfFields, formParts_eq]
  unfold FormParts.assemble withProperties withItems putProperties
  dsimp only
  congr 1
  funext base
  cases mapping? "properties" schema with
  | none => cases mapping? "items" schema <;> rfl
  | some properties =>
    dsimp only [Option.map]
    rw [bind_assoc]
    congr 1
    funext fields
    cases Fields.get? "required" schema with
    | none => cases mapping? "items" schema <;> rfl
    | some listed =>
      cases listed with
      | list required =>
        dsimp only
        cases requiredNames fields required with
        | error fault => rfl
        | ok names => cases mapping? "items" schema <;> rfl
      | _ => cases mapping? "items" schema <;> rfl

/-! ### A form that comes about -/

theorem enumToOptions_cases {schema base : Fields} (h : enumToOptions schema = .ok base) :
    Fields.get? "enum" schema = none ∧ base = schema ∨
      ∃ choices options, Fields.get? "enum" schema = some choices ∧
        choices.members = .ok options ∧ base = Fields.put "options" (.list options)
          (Fields.put "type" (.str "options") (Entries.without (.str "enum") schema)) := by
  unfold enumToOptions at h
  split at h
  · next hnone => exact Or.inl ⟨hnone, (Except.ok.inj h).symm⟩
  · next choices hchoices =>
    obtain ⟨options, hmembers, h⟩ := Outcome.bind_eq_ok.1 h
    exact Or.inr ⟨choices, options, hchoices, hmembers, (Outcome.pure_eq_ok.1 h).symm⟩

theorem putProperties_cases {schema base named : Fields} {fields : List FormField}
    (h : putProperties schema fields base = .ok named) :
    (∀ rs, Fields.get? "required" schema ≠ some (.list rs)) ∧
        named = Fields.put "properties" (.map (sortedProperties fields)) base ∨
      ∃ rs names, Fields.get? "required" schema = some (.list rs) ∧
        requiredNames fields rs = .ok names ∧ named = Fields.put "required" (Value.texts names)
          (Fields.put "properties" (.map (sortedProperties fields)) base) := by
  unfold putProperties at h
  dsimp only at h
  split at h
  · next rs hrs =>
    obtain ⟨names, hnames, h⟩ := Outcome.bind_eq_ok.1 h
    exact Or.inr ⟨rs, names, hrs, hnames, (Outcome.pure_eq_ok.1 h).symm⟩
  · next hno => exact Or.inl ⟨hno, (Except.ok.inj h).symm⟩

theorem withProperties_cases {method : Text} {schema base named : Fields}
    (h : withProperties method schema base = .ok named) :
    mapping? "properties" schema = none ∧ named = base ∨
      ∃ ps fields, mapping? "properties" schema = some ps ∧ formFields method [] ps = .ok fields ∧
        putProperties schema fields base = .ok named := by
  unfold withProperties at h
  split at h
  · next hnone => exact Or.inl ⟨hnone, (Except.ok.inj h).symm⟩
  · next ps hps =>
    obtain ⟨fields, hfields, h⟩ := Outcome.bind_eq_ok.1 h
    exact Or.inr ⟨ps, fields, hps, hfields, Outcome.lift_eq_ok.1 h⟩

theorem withItems_cases {method : Text} {schema named form : Fields}
    (h : withItems method schema named = .ok form) :
    mapping? "items" schema = none ∧ form = named ∨
      ∃ inner f, mapping? "items" schema = some inner ∧ formOfFields method inner = .ok f ∧
        form = Fields.put "items" (.map f) named := by
  unfold withItems at h
  split at h
  · next hnone => exact Or.inl ⟨hnone, (Except.ok.inj h).symm⟩
  · next inner hinner =>
    obtain ⟨f, hf, h⟩ := Outcome.bind_eq_ok.1 h
    exact Or.inr ⟨inner, f, hinner, hf, (Outcome.pure_eq_ok.1 h).symm⟩

/-- A form that comes about has gone through all three steps. -/
theorem exists_steps {method : Text} {schema form : Fields}
    (h : formOfFields method schema = .ok form) : ∃ base named,
      enumToOptions schema = .ok base ∧ withProperties method schema base = .ok named ∧
        withItems method schema named = .ok form := by
  rw [formOfFields_eq] at h
  obtain ⟨base, hbase, h⟩ := Outcome.bind_eq_ok.1 h
  obtain ⟨named, hnamed, h⟩ := Outcome.bind_eq_ok.1 h
  exact ⟨base, named, Outcome.lift_eq_ok.1 hbase, hnamed, h⟩

/-- Only a mapping has a form. -/
theorem toForm_eq_ok {method : Text} {v : Value} {form : Fields} :
    toForm method v = .ok form ↔
      ∃ schema, v = .map schema ∧ formOfFields method schema = .ok form := by
  constructor
  · intro h
    unfold toForm at h
    split at h
    · next schema => exact ⟨schema, rfl, h⟩
    -- what is no mapping fails, one way or the other
    · obtain ⟨holds, -, h⟩ := Outcome.bind_eq_ok.1 h
      dsimp only at h
      split at h
      · cases h
      · obtain ⟨fields, -, h⟩ := Outcome.bind_eq_ok.1 h
        cases h
  · rintro ⟨schema, rfl, h⟩
    exact h

/-! ### Keys that a step leaves as they are -/

theorem get?_without {k key : Text} (h : k ≠ key) (fields : Fields) :
    Fields.get? k (Entries.without (.str key) fields) = Fields.get? k fields := by
  refine Entries.lookup_filter (p := fun k' => !(k' == Scalar.str key)) (fun k' hk => ?_) fields
  have hne : (k' == Scalar.str key) = false := by
    rw [Scalar.str_beq_iff.1 hk, Scalar.beq_str, beq_eq_false_iff_ne]
    exact h
  rw [hne]
  rfl

theorem get?_without_self (key : Text) (fields : Fields) :
    Fields.get? key (Entries.without (.str key) fields) = none := by
  rw [Fields.get?, List.lookup_eq_none_iff]
  intro e he
  rw [bne, BEq.comm]
  exact (List.mem_filter.1 he).2

/-- Turning an `enum` into options touches no other keys than those of both and the type. -/
theorem get?_enumToOptions {schema base : Fields} (h : enumToOptions schema = .ok base)
    {key : Text} (henum : key ≠ "enum") (htype : key ≠ "type") (hoptions : key ≠ "options") :
    Fields.get? key base = Fields.get? key schema := by
  rcases enumToOptions_cases h with ⟨-, rfl⟩ | ⟨choices, options, -, -, rfl⟩
  · rfl
  · rw [Fields.get?_put, if_neg hoptions, Fields.get?_put, if_neg htype, get?_without henum]

/-- Nothing is left of an `enum` that is turned into options. -/
theorem get?_enum_enumToOptions {schema base : Fields} (h : enumToOptions schema = .ok base) :
    Fields.get? "enum" base = none := by
  rcases enumToOptions_cases h with ⟨hnone, rfl⟩ | ⟨choices, options, -, -, rfl⟩
  · exact hnone
  · rw [Fields.get?_put, if_neg (by decide), Fields.get?_put, if_neg (by decide),
      get?_without_self]

/-- The properties touch no other keys than their own and that of the mandatory names. -/
theorem get?_withProperties {method : Text} {schema base named : Fields}
    (h : withProperties method schema base = .ok named) {key : Text}
    (hproperties : key ≠ "properties") (hrequired : key ≠ "required") :
    Fields.get? key named = Fields.get? key base := by
  rcases withProperties_cases h with ⟨-, rfl⟩ | ⟨ps, fields, -, -, h⟩
  · rfl
  · rcases putProperties_cases h with ⟨-, rfl⟩ | ⟨rs, names, -, -, rfl⟩
    · rw [Fields.get?_put, if_neg hproperties]
    · rw [Fields.get?_put, if_neg hrequired, Fields.get?_put, if_neg hproperties]

theorem get?_withItems {method : Text} {schema named form : Fields}
    (h : withItems method schema named = .ok form) {key : Text} (hkey : key ≠ "items") :
    Fields.get? key form = Fields.get? key named := by
  rcases withItems_cases h with ⟨-, rfl⟩ | ⟨inner, f, -, -, rfl⟩
  · rfl
  · rw [Fields.get?_put, if_neg hkey]

/-- Once the choices are made, a form touches no other keys than those of the properties and of the
items. -/
theorem exists_base {method : Text} {schema form : Fields}
    (h : formOfFields method schema = .ok form) : ∃ base, enumToOptions schema = .ok base ∧
      ∀ key : Text, key ≠ "properties" → key ≠ "required" → key ≠ "items" →
        Fields.get? key form = Fields.get? key base := by
  obtain ⟨base, named, hbase, hnamed, h⟩ := exists_steps h
  exact ⟨base, hbase, fun _ hproperties hrequired hitems =>
    (get?_withItems h hitems).trans (get?_withProperties hnamed hproperties hrequired)⟩

/-! ### What a form is made of -/

/-- What the form of a schema is made of, as far as the properties, their mandatory names and the
items go. -/
structure IsFormOf (method : Text) (schema form : Fields) : Prop where
  properties : ∀ ps, mapping? "properties" schema = some ps → ∃ fields,
    formFields method [] ps = .ok fields ∧
      Fields.get? "properties" form = some (.map (sortedProperties fields)) ∧
      ∀ rs, Fields.get? "required" schema = some (.list rs) → ∃ names,
        requiredNames fields rs = .ok names ∧
          Fields.get? "required" form = some (Value.texts names)
  noProperties : mapping? "properties" schema = none →
    Fields.get? "properties" form = Fields.get? "properties" schema
  items : ∀ inner, mapping? "items" schema = some inner → ∃ f,
    formOfFields method inner = .ok f ∧ Fields.get? "items" form = some (.map f)

theorem get?_putProperties {schema base named : Fields} {fields : List FormField}
    (h : putProperties schema fields base = .ok named) :
    Fields.get? "properties" named = some (.map (sortedProperties fields)) ∧
      ∀ rs, Fields.get? "required" schema = some (.list rs) → ∃ names,
        requiredNames fields rs = .ok names ∧
          Fields.get? "required" named = some (Value.texts names) := by
  rcases putProperties_cases h with ⟨hno, rfl⟩ | ⟨required, names, hrequired, hnames, rfl⟩
  · refine ⟨?_, fun rs hrs => absurd hrs (hno rs)⟩
    rw [Fields.get?_put, if_pos rfl]
  · refine ⟨?_, fun rs hrs => ⟨names, ?_, ?_⟩⟩
    · rw [Fields.get?_put, if_neg (by decide), Fields.get?_put, if_pos rfl]
    · rw [hrequired, Option.some.injEq, Value.list.injEq] at hrs
      rw [← hrs, hnames]
    · rw [Fields.get?_put, if_pos rfl]

theorem isFormOf_of_formOfFields {method : Text} {schema form : Fields}
    (h : formOfFields method schema = .ok form) : IsFormOf method schema form := by
  obtain ⟨base, named, hbase, hnamed, h⟩ := exists_steps h
  have hproperties : Fields.get? "properties" form = Fields.get? "properties" named :=
    get?_withItems h (by decide)
  have hrequired : Fields.get? "required" form = Fields.get? "required" named :=
    get?_withItems h (by decide)
  refine ⟨fun ps hps => ?_, fun hnone => ?_, fun inner hinner => ?_⟩
  · rcases withProperties_cases hnamed with ⟨hnone, -⟩ | ⟨ps', fields, hps', hfields, hnamed⟩
    · rw [hps] at hnone
      cases hnone
    · rw [hps, Option.some.injEq] at hps'
      rw [hps', hproperties, hrequired]
      exact ⟨fields, hfields, get?_putProperties hnamed⟩
  · rcases withProperties_cases hnamed with ⟨-, rfl⟩ | ⟨ps, fields, hps, -, -⟩
    · rw [hproperties]
      exact get?_enumToOptions hbase (by decide) (by decide) (by decide)
    · rw [hnone] at hps
      cases hps
  · rcases withItems_cases h with ⟨hnone, -⟩ | ⟨inner', f, hinner', hf, rfl⟩
    · rw [hinner] at hnone
      cases hnone
    · rw [hinner, Option.some.injEq] at hinner'
      refine ⟨f, hinner' ▸ hf, ?_⟩
      rw [Fields.get?_put, if_pos rfl]

/-- Items that are no mapping stay. -/
theorem get?_items_formOfFields {method : Text} {schema form : Fields}
    (h : formOfFields method schema = .ok form) (hnone : mapping? "items" schema = none) :
    Fields.get? "items" form = Fields.get? "items" schema := by
  obtain ⟨base, named, hbase, hnamed, h⟩ := exists_steps h
  rcases withItems_cases h with ⟨-, rfl⟩ | ⟨inner, f, hinner, -, -⟩
  · rw [get?_withProperties hnamed (by decide) (by decide),
      get?_enumToOptions hbase (by decide) (by decide) (by decide)]
  · rw [hnone] at hinner
    cases hinner

/-- A form lists mandatory names only where its schema lists its required properties. -/
theorem exists_listed_of_formOfFields {method : Text} {schema form : Fields}
    (h : formOfFields method schema = .ok form) {rs : List Value}
    (hrs : Fields.get? "required" form = some (.list rs)) :
    ∃ listed, Fields.get? "required" schema = some (.list listed) := by
  obtain ⟨base, named, hbase, hnamed, h⟩ := exists_steps h
  have hkept : Fields.get? "required" base = Fields.get? "required" schema :=
    get?_enumToOptions hbase (by decide) (by decide) (by decide)
  rw [get?_withItems h (by decide)] at hrs
  rcases withProperties_cases hnamed with ⟨-, rfl⟩ | ⟨ps, fields, -, -, hnamed⟩
  · exact ⟨rs, hkept ▸ hrs⟩
  · rcases putProperties_cases hnamed with ⟨-, rfl⟩ | ⟨listed, names, hlisted, -, -⟩
    · rw [Fields.get?_put, if_neg (by decide), hkept] at hrs
      exact ⟨rs, hrs⟩
    · exact ⟨listed, hlisted⟩

/-- The form of a schema with an `enum` is one of options, which are the members of the `enum`. -/
theorem options_of_enum {method : Text} {schema form : Fields}
    (h : formOfFields method schema = .ok form) {choices : Value}
    (henum : Fields.get? "enum" schema = some choices) : ∃ options,
      choices.members = .ok options ∧ Fields.get? "type" form = some (.str "options") ∧
        Fields.get? "options" form = some (.list options) := by
  obtain ⟨base, hbase, hkept⟩ := exists_base h
  rw [hkept "type" (by decide) (by decide) (by decide),
    hkept "options" (by decide) (by decide) (by decide)]
  rcases enumToOptions_cases hbase with ⟨hnone, -⟩ | ⟨choices', options, henum', hmembers, rfl⟩
  · rw [henum] at hnone
    cases hnone
  · rw [henum, Option.some.injEq] at henum'
    refine ⟨options, henum' ▸ hmembers, ?_, ?_⟩
    · rw [Fields.get?_put, if_neg (by decide), Fields.get?_put, if_pos rfl]
    · rw [Fields.get?_put, if_pos rfl]

/-! ### A form that does not come about -/

variable {method : Text}

/-- Whether a node can be read as a schema: its properties are named by texts, its choices can be
gone through, and what it lists as required are texts. -/
structure IsReadable (node : Fields) : Prop where
  names : ∀ properties, mapping? "properties" node = some properties →
    ∀ e ∈ properties, ∃ n, e.1 = .str n
  choices : ∀ v, Fields.get? "enum" node = some v → ∃ options, v.members = .ok options
  required : ∀ rs, Fields.get? "required" node = some (.list rs) → ∀ r ∈ rs, ∃ n, r = .str n

theorem exists_str_iff {k : Scalar} :
    (∃ n, k = .str n) ↔ (Value.scalar k).text?.isSome = true := by
  cases k <;> simp [Value.text?]

instance (node : Fields) : Decidable (IsReadable node) :=
  decidable_of_iff
    ((∀ e ∈ (mapping? "properties" node).getD [], (Value.scalar e.1).text?.isSome = true) ∧
      (∀ v ∈ Fields.get? "enum" node, v.members.isOk = true) ∧
      ∀ r ∈ ((Fields.get? "required" node).bind Value.items?).getD [], r.text?.isSome = true)
    (by
      constructor
      · rintro ⟨hnames, hchoices, hrequired⟩
        refine ⟨fun properties hproperties e he => ?_, fun v hv => ?_, fun rs hrs r hr => ?_⟩
        · rw [hproperties] at hnames
          exact exists_str_iff.2 (hnames e he)
        · exact Outcome.isOk_iff.1 (hchoices v hv)
        · rw [hrs] at hrequired
          exact Value.exists_str_iff.2 (hrequired r hr)
      · rintro ⟨hnames, hchoices, hrequired⟩
        refine ⟨fun e he => ?_, fun v hv => Outcome.isOk_iff.2 (hchoices v hv), fun r hr => ?_⟩
        · cases hproperties : mapping? "properties" node with
          | none =>
            rw [hproperties] at he
            cases he
          | some properties =>
            rw [hproperties] at he
            exact exists_str_iff.1 (hnames properties hproperties e he)
        · cases hlisted : (Fields.get? "required" node).bind Value.items? with
          | none =>
            rw [hlisted] at hr
            cases hr
          | some rs =>
            obtain ⟨v, hv, hitems⟩ := Option.bind_eq_some_iff.1 hlisted
            cases v <;> cases hitems
            rw [hlisted] at hr
            exact Value.exists_str_iff.1 (hrequired rs hv r hr))

theorem exists_enumToOptions {node : Fields} (h : IsReadable node) :
    ∃ base, enumToOptions node = .ok base := by
  unfold enumToOptions
  split
  · exact ⟨node, rfl⟩
  · next choices hchoices =>
    obtain ⟨options, hoptions⟩ := h.choices choices hchoices
    exact ⟨_, Outcome.bind_eq_ok.2 ⟨options, hoptions, rfl⟩⟩

theorem exists_putProperties {node : Fields} (h : IsReadable node) (fields : List FormField)
    (base : Fields) :
    ∃ named, putProperties node fields base = .ok named := by
  unfold putProperties
  dsimp only
  split
  · next rs hrs =>
    have hnames : ∃ names, (rs.mapM fun r => Naming.field <$> r.asText .wrongKind) =
        Except.ok names := by
      refine Outcome.exists_mapM_eq_ok.2 fun r hr => ?_
      obtain ⟨n, rfl⟩ := h.required rs hrs r hr
      exact ⟨Naming.field n, rfl⟩
    obtain ⟨names, hnames⟩ := hnames
    refine ⟨_, Outcome.bind_eq_ok.2 ⟨_, Outcome.bind_eq_ok.2 ⟨names, hnames, rfl⟩, rfl⟩⟩
  · exact ⟨_, rfl⟩

/-- A readable node has no form only because its properties have no fields or its items no
form. -/
theorem error_of_formOfFields {node : Fields} {e : Failure} (hread : IsReadable node)
    (h : formOfFields method node = .error e) :
    (∃ properties, mapping? "properties" node = some properties ∧
        formFields method [] properties = .error e) ∨
      ∃ inner, mapping? "items" node = some inner ∧ formOfFields method inner = .error e := by
  rw [formOfFields_eq] at h
  rcases Outcome.bind_eq_error.1 h with h | ⟨base, -, h⟩
  · obtain ⟨base, hbase⟩ := exists_enumToOptions hread
    rw [hbase] at h
    cases h
  rcases Outcome.bind_eq_error.1 h with h | ⟨named, -, h⟩
  · left
    unfold withProperties at h
    split at h
    · cases h
    · next properties hproperties =>
      refine ⟨properties, hproperties, ?_⟩
      rcases Outcome.bind_eq_error.1 h with h | ⟨fields, -, h⟩
      · exact h
      · obtain ⟨named, hnamed⟩ := exists_putProperties hread fields base
        rw [hnamed] at h
        cases h
  · right
    unfold withItems at h
    split at h
    · cases h
    · next inner hinner =>
      refine ⟨inner, hinner, ?_⟩
      rcases Outcome.bind_eq_error.1 h with h | ⟨f, -, h⟩
      · exact h
      · cases h

end Schema

end NodeForge
