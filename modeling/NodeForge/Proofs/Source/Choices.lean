import NodeForge.Proofs.Document.Sameness
import NodeForge.Proofs.Document.Spelling
import NodeForge.Proofs.OpenApi.Declarations
import NodeForge.Proofs.Schema.Steps
import NodeForge.Proofs.Source.Collections

/-!
# What a block carries for its type

A block of type `options` has to carry the choices, and one of type `fixedCollection` the blocks of
the properties. The type of a block comes from the type of its schema, but a list is entered by the
control for its items, and any type that is not known stands for itself. The choices and the blocks
of the properties look at the type of the schema alone. So they come with the type exactly if the
schema has it itself: a list of options is entered by a control of type `options` without choices,
and a list of objects by one of type `fixedCollection` without fields (`carries_of_isPart`).
-/

namespace NodeForge.Source

open FieldBlock

/-! ### Views -/

/-- The choices that a block carries, if it does. -/
def FieldBlock.choices? : FieldBlock → Option (List Choice)
  | .single field => field.choices
  | _ => none

/-- The blocks of properties that a block carries, if it does. -/
def FieldBlock.values? : FieldBlock → Option (List FieldBlock)
  | .fixedCollection _ _ _ _ values _ _ => some values
  | _ => none

/-- Whether a schema has a type itself. -/
def HasType (schema : Fields) (type : Text) : Prop := (Fields.get "type" schema).isText type = true

/-- Whether a block is another one or stands inside of it, at any depth. -/
inductive IsPart (b : FieldBlock) : FieldBlock → Prop
  | self : IsPart b b
  | nested {c d : FieldBlock} (hpart : IsPart b c) (hd : d ∈ c.nested) : IsPart b d

/-- A block in or inside of the block of a schema, with the key and the schema that it is made
from. -/
inductive Within (key : Scalar) (schema : Fields) (b : FieldBlock) :
    Scalar → Fields → FieldBlock → Prop
  | self : Within key schema b key schema b
  | property {k own : Scalar} {s properties inner : Fields} {c d : FieldBlock}
      (hwithin : Within key schema b k s c)
      (hproperties : Fields.get? "properties" s = some (.map properties))
      (hpair : ((own, .map inner), d) ∈ properties.zip c.nested) : Within key schema b own inner d

/-! ### How blocks are made -/

section Making

variable {key : Scalar} {required : Bool} {shown : Lines} {schema : Fields} {b : FieldBlock}

/-- The blocks of some properties are made one by one. -/
theorem ofEntries_eq_ok {entries : Fields} {blocks : List FieldBlock}
    (h : ofEntries entries = .ok blocks) :
    List.Forall₂ (fun e d => ofSchema e.1 false [] e.2 = .ok d) entries blocks := by
  induction entries generalizing blocks with
  | nil =>
    rw [ofEntries, Except.ok.injEq] at h
    rw [← h]
    exact .nil
  | cons e rest ih =>
    obtain ⟨block, hblock, h⟩ := Outcome.bind_eq_ok.1 h
    obtain ⟨blocks', hblocks', h⟩ := Outcome.bind_eq_ok.1 h
    rw [← Outcome.pure_eq_ok.1 h]
    exact .cons hblock (ih hblocks')

/-- The properties of a schema are looked for as any other key. -/
theorem ofProperties_eq (es : Fields) :
    ofProperties es =
      match Fields.get? "properties" es with
      | some (.map properties) => ofEntries properties
      | some _ => .error .noSuchMember
      | none => .ok [] := by
  induction es with
  | nil => rfl
  | cons e rest ih =>
    obtain ⟨k, v⟩ := e
    unfold ofProperties Fields.get?
    rw [List.lookup_cons, BEq.comm (a := k)]
    cases Scalar.str "properties" == k with
    | true => cases v <;> rfl
    | false => exact ih

/-- Whether a block is made of an object with properties, with a block for each of them. -/
structure IsOfObject (schema : Fields) (b : FieldBlock) : Prop where
  object_eq : isObject schema = true
  type_eq : b.type = "fixedCollection"
  choices_eq : b.choices? = none
  values_eq : b.values? = some b.nested
  exists_properties : ∃ properties, Fields.get? "properties" schema = some (.map properties) ∧
    List.Forall₂ (fun e d => ofSchema e.1 false [] e.2 = .ok d) properties b.nested

/-- A block is made of an object with properties, or it is a single field. -/
theorem made_of_ofSchema (h : ofSchema key required shown (.map schema) = .ok b) :
    IsOfObject schema b ∨
      isObject schema = false ∧ ∃ field, singleOf key required shown schema = .ok field ∧
        b = .single field := by
  rw [ofSchema, ofFields] at h
  cases hobject : isObject schema with
  | true =>
    rw [hobject, if_pos rfl] at h
    obtain ⟨description, -, h⟩ := Outcome.bind_eq_ok.1 h
    obtain ⟨nestedKey, -, h⟩ := Outcome.bind_eq_ok.1 h
    obtain ⟨values, hvalues, h⟩ := Outcome.bind_eq_ok.1 h
    rw [Outcome.pure_eq_ok] at h
    have htruthy : (Fields.get "properties" schema).truthy = true := by
      rw [isObject, Bool.and_eq_true] at hobject
      exact hobject.2
    rw [ofProperties_eq] at hvalues
    left
    subst h
    refine ⟨hobject, rfl, rfl, rfl, ?_⟩
    cases hget : Fields.get? "properties" schema with
    | none =>
      rw [Fields.get, hget] at htruthy
      cases htruthy
    | some v =>
      rw [hget] at hvalues
      cases v with
      | map properties => exact ⟨properties, rfl, ofEntries_eq_ok hvalues⟩
      | _ => cases hvalues
  | false =>
    rw [hobject, if_neg Bool.false_ne_true] at h
    obtain ⟨field, hfield, h⟩ := Outcome.bind_eq_ok.1 h
    rw [Outcome.pure_eq_ok] at h
    exact Or.inr ⟨rfl, field, hfield, h.symm⟩

end Making

/-! ### Where a type comes from -/

section Types

variable {key : Scalar} {schema : Fields} {control : Value} {type : Text}

/-- The type of a schema, where one that has none counts as a text. -/
def declaredType (schema : Fields) : Value := (Fields.get? "type" schema).getD (.str "string")

theorem hasType_iff (htype : type ≠ "string") :
    HasType schema type ↔ declaredType schema = .str type := by
  rw [HasType, declaredType, Fields.get]
  cases Fields.get? "type" schema with
  | none =>
    rw [Option.getD_none, Option.getD_none]
    constructor
    · intro h
      cases h
    · intro h
      cases h
      exact absurd rfl htype
  | some v =>
    rw [Option.getD_some, Option.getD_some]
    exact OpenApi.isText_iff

/-- What makes the type of a control. -/
theorem controlType_cases (h : controlType key (.map schema) = .ok control) :
    control = .str "number" ∨ control = .str "dateTime" ∨ control = .str "json" ∨
      isObject schema = true ∨ control = declaredType schema ∨
      HasType schema "array" ∧ itemControl key schema = some (.ok control) := by
  rw [controlType] at h
  unfold controlTypeFrom at h
  dsimp only at h
  rw [← declaredType] at h
  split at h
  · exact Or.inl (Except.ok.inj h).symm
  · obtain ⟨date, -, h⟩ := Outcome.bind_eq_ok.1 h
    split at h
    · exact Or.inr (Or.inl (Except.ok.inj h).symm)
    · split at h
      · next htype =>
        have hobject : HasType schema "object" :=
          (hasType_iff (by decide)).2 (OpenApi.isText_iff.1 htype)
        cases hproperties : (Fields.get "properties" schema).truthy with
        | true =>
          have hboth : isObject schema = true := by
            rw [isObject, hproperties, Bool.and_true]
            exact hobject
          exact Or.inr (Or.inr (Or.inr (Or.inl hboth)))
        | false =>
          rw [hproperties, if_neg Bool.false_ne_true] at h
          exact Or.inr (Or.inr (Or.inl (Except.ok.inj h).symm))
      · split at h
        · next htype =>
          have harray : HasType schema "array" :=
            (hasType_iff (by decide)).2 (OpenApi.isText_iff.1 htype)
          cases hitems : itemControl key schema with
          | none =>
            rw [hitems] at h
            exact Or.inr (Or.inr (Or.inr (Or.inr (Or.inl (Except.ok.inj h).symm))))
          | some ofItems =>
            rw [hitems] at h
            have heq : ofItems = .ok control := h
            rw [heq]
            exact Or.inr (Or.inr (Or.inr (Or.inr (Or.inr ⟨harray, rfl⟩))))
        · exact Or.inr (Or.inr (Or.inr (Or.inr (Or.inl (Except.ok.inj h).symm))))

/-- The types that a control can have whatever the type of its schema is called, and the type of a
schema that has none. -/
def fixedTypes : List Text := ["number", "dateTime", "json", "string"]

/-- Where a schema is no object with properties, any other type of its control is its own type or
the type of the control for its items. -/
theorem hasType_of_controlType (hobject : isObject schema = false)
    (h : controlType key (.map schema) = .ok (.str type)) (htype : type ∉ fixedTypes) :
    HasType schema type ∨
      HasType schema "array" ∧ itemControl key schema = some (.ok (.str type)) := by
  have hne : ∀ fixed ∈ fixedTypes, Value.str type ≠ .str fixed := by
    intro fixed hfixed heq
    cases heq
    exact htype hfixed
  rcases controlType_cases h with heq | heq | heq | heq | heq | hitems
  · exact absurd heq (hne "number" (by decide))
  · exact absurd heq (hne "dateTime" (by decide))
  · exact absurd heq (hne "json" (by decide))
  · rw [heq] at hobject
    cases hobject
  · refine Or.inl ((hasType_iff ?_).2 heq.symm)
    rintro rfl
    exact htype (by decide)
  · exact Or.inr hitems

end Types

/-! ### Blocks and their lists -/

/-- What a block carries for its type, which is `options` or `fixedCollection` because the schema
has this type itself or because the items of a list have it. -/
structure Carries (key : Scalar) (schema : Fields) (b : FieldBlock) : Prop where
  /-- There is a choice for each declared option if the schema has the type itself, and no list of
  choices if it is a list of such items. -/
  choices : b.type = "options" →
    (HasType schema "options" ∧ ∃ options,
      ((Fields.get? "options" schema).getD (.list [])).members = .ok options ∧
        b.choices? = some (options.map choiceOf)) ∨
    (HasType schema "array" ∧ itemControl key schema = some (.ok (.str "options")) ∧
      b.choices? = none)
  /-- There is a block for each declared property if the schema is an object with properties, and
  no list of blocks if it is a list of such items or if `fixedCollection` is what its own type is
  called. -/
  values : b.type = "fixedCollection" →
    (isObject schema = true ∧ ∃ properties values,
      Fields.get? "properties" schema = some (.map properties) ∧ b.values? = some values ∧
        values.map FieldBlock.name = properties.map fun e => e.1.text) ∨
    (isObject schema = false ∧ b.values? = none ∧
      (HasType schema "fixedCollection" ∨
        HasType schema "array" ∧ itemControl key schema = some (.ok (.str "fixedCollection"))))
  /-- Whatever the type of the block is, there is a choice for each member of an `enum`, if the
  schema is the form of one that has it. -/
  enumerated : ∀ method source choices, Schema.formOfFields method source = .ok schema →
    Fields.get? "enum" source = some choices → ∃ options, choices.members = .ok options ∧
      b.choices? = some (options.map choiceOf)

section Carries

variable {key : Scalar} {required : Bool} {shown : Lines} {schema : Fields} {b : FieldBlock}

/-- The form of a schema with an `enum` lists its members. -/
theorem choices_of_enum {method : Text} {source : Fields} {choices : Value}
    (hform : Schema.formOfFields method source = .ok schema)
    (henum : Fields.get? "enum" source = some choices) :
    HasType schema "options" ∧ ∃ options, choices.members = .ok options ∧
      ((Fields.get? "options" schema).getD (.list [])).members = .ok options := by
  obtain ⟨options, hmembers, htype, hoptions⟩ := Schema.options_of_enum hform henum
  refine ⟨?_, options, hmembers, ?_⟩
  · rw [hasType_iff (by decide), declaredType, htype]
    rfl
  · rw [hoptions]
    rfl

theorem not_isObject_of_hasType {type : Text} (h : HasType schema type) (hne : type ≠ "object") :
    isObject schema = false := by
  rw [isObject, Bool.and_eq_false_iff]
  left
  rw [HasType, OpenApi.isText_iff] at h
  rw [h]
  simpa [Value.isText, Value.text?] using hne

theorem IsOfObject.carries (h : IsOfObject schema b) : Carries key schema b := by
  constructor
  · intro htype
    rw [h.type_eq] at htype
    exact absurd htype (by decide)
  · intro _
    obtain ⟨properties, hproperties, hvalues⟩ := h.exists_properties
    have hnames : (properties.map fun e => e.1.text) = b.nested.map FieldBlock.name := by
      refine Outcome.map_eq_map_of_forall₂ (fun e d hd => ?_) hvalues
      exact (block_of_ofSchema hd).1.symm
    exact Or.inl ⟨h.object_eq, properties, b.nested, hproperties, h.values_eq, hnames.symm⟩
  · intro method source choices hform henum
    have hnot := not_isObject_of_hasType (choices_of_enum hform henum).1 (by decide)
    rw [h.object_eq] at hnot
    cases hnot

/-- The choices are listed if the schema has the type of options itself. -/
theorem choicesIn_eq_ok {choices : Option (List Choice)} (h : choicesIn schema = .ok choices) :
    (HasType schema "options" ∧ ∃ options,
      ((Fields.get? "options" schema).getD (.list [])).members = .ok options ∧
        choices = some (options.map choiceOf)) ∨
      ¬ HasType schema "options" ∧ choices = none := by
  unfold choicesIn at h
  split at h
  · next hown =>
    obtain ⟨options, hoptions, h⟩ := Outcome.bind_eq_ok.1 h
    exact Or.inl ⟨hown, options, hoptions, (Outcome.pure_eq_ok.1 h).symm⟩
  · next hown => exact Or.inr ⟨hown, (Outcome.pure_eq_ok.1 h).symm⟩

theorem carries_of_singleOf {field : SingleField} (hobject : isObject schema = false)
    (h : singleOf key required shown schema = .ok field) :
    Carries key schema (.single field) := by
  obtain ⟨control, hcontrol, h⟩ := Outcome.bind_eq_ok.1 h
  obtain ⟨choices, hchoices, h⟩ := Outcome.bind_eq_ok.1 h
  obtain ⟨default, -, h⟩ := Outcome.bind_eq_ok.1 h
  obtain ⟨description, -, h⟩ := Outcome.bind_eq_ok.1 h
  rw [Outcome.pure_eq_ok] at h
  have htypeOf : ∀ t : Text, ¬ Opens t → t ∉ fixedTypes → FieldBlock.type (.single field) = t →
      HasType schema t ∨
        HasType schema "array" ∧ itemControl key schema = some (.ok (.str t)) := by
    intro t hopens ht htype
    have htext : control.text = t := by
      rw [← htype, ← h]
      rfl
    rw [Value.eq_str_of_text htext hopens] at hcontrol
    exact hasType_of_controlType hobject hcontrol ht
  have hlist : (FieldBlock.single field).choices? = choices := by
    rw [← h]
    rfl
  constructor
  · intro htype
    rw [hlist]
    rcases choicesIn_eq_ok hchoices with hown | ⟨hnot, hnone⟩
    · exact Or.inl hown
    · rcases htypeOf "options" (by decide) (by decide) htype with hown | ⟨harray, hitems⟩
      · exact absurd hown hnot
      · exact Or.inr ⟨harray, hitems, hnone⟩
  · intro htype
    exact Or.inr ⟨hobject, rfl, htypeOf "fixedCollection" (by decide) (by decide) htype⟩
  · intro method source enumerated hform henum
    obtain ⟨hown, options, hmembers, hoptions⟩ := choices_of_enum hform henum
    rw [hlist]
    rcases choicesIn_eq_ok hchoices with ⟨-, options', hoptions', heq⟩ | ⟨hnot, -⟩
    · rw [← Except.ok.inj (hoptions.symm.trans hoptions')] at heq
      exact ⟨options, hmembers, heq⟩
    · exact absurd hown hnot

theorem carries_of_ofSchema (h : ofSchema key required shown (.map schema) = .ok b) :
    Carries key schema b := by
  rcases made_of_ofSchema h with hobject | ⟨hobject, field, hfield, rfl⟩
  · exact hobject.carries
  · exact carries_of_singleOf hobject hfield

/-- Every block inside of another one is made from a schema in the same way. -/
theorem exists_ofSchema_of_within (h : ofSchema key required shown (.map schema) = .ok b)
    {k : Scalar} {s : Fields} {c : FieldBlock} (hwithin : Within key schema b k s c) :
    ∃ required shown, ofSchema k required shown (.map s) = .ok c := by
  induction hwithin with
  | self => exact ⟨required, shown, h⟩
  | @property k own s properties inner c d hwithin hproperties hpair ih =>
    obtain ⟨required', shown', hmade⟩ := ih
    rcases made_of_ofSchema hmade with hobject | ⟨-, field, -, rfl⟩
    · obtain ⟨properties', hproperties', hvalues⟩ := hobject.exists_properties
      rw [hproperties, Option.some.injEq, Value.map.injEq] at hproperties'
      subst hproperties'
      exact ⟨false, [], (List.forall₂_iff_zip.1 hvalues).2 hpair⟩
    · simp [nested] at hpair

/-- Every block inside of another one stands for a property of a schema. -/
theorem exists_within (h : ofSchema key required shown (.map schema) = .ok b) {c : FieldBlock}
    (hpart : IsPart b c) : ∃ k s, Within key schema b k s c := by
  induction hpart with
  | self => exact ⟨key, schema, .self⟩
  | @nested c d hpart hd ih =>
    obtain ⟨k, s, hwithin⟩ := ih
    obtain ⟨required', shown', hmade⟩ := exists_ofSchema_of_within h hwithin
    rcases made_of_ofSchema hmade with hobject | ⟨-, field, -, rfl⟩
    · obtain ⟨properties, hproperties, hvalues⟩ := hobject.exists_properties
      obtain ⟨e, hpair, hblock⟩ := Outcome.exists_zip_of_mem hvalues hd
      obtain ⟨own, v⟩ := e
      -- what is no mapping has no block
      cases v with
      | map inner => exact ⟨own, inner, .property hwithin hproperties hpair⟩
      | _ => simp [ofSchema] at hblock
    · cases hd

/-- **What blocks carry for their types.** Every block in or inside of the block of a schema is made
from a schema itself: from the one of the whole, or from the one of a property. It carries one choice
for each option if that schema is one of options itself, and one block for each property if it is an
object with properties itself. Where its type comes from the items of a list, it carries neither. -/
theorem carries_of_isPart (h : ofSchema key required shown (.map schema) = .ok b) :
    (∀ c, IsPart b c → ∃ k s, Within key schema b k s c) ∧
      ∀ k s c, Within key schema b k s c → Carries k s c := by
  constructor
  · exact fun c => exists_within h
  · intro k s c hwithin
    obtain ⟨required', shown', hmade⟩ := exists_ofSchema_of_within h hwithin
    exact carries_of_ofSchema hmade

end Carries

/-- Parcels: with a choice of their state, and with labels, of which several can be chosen. -/
def parcelForm : Fields :=
  [(.str "type", .str "object"), (.str "properties", .record [
    ("labels", .record [("type", .str "array"), ("items", .record [("type", .str "options"),
      ("options", .texts ["fragile", "heavy"])])]),
    ("state", .record [("type", .str "options"), ("options", .texts ["sent", "lost"])])])]

theorem carries_parcelForm : ∃ b, ofSchema (.str "parcel") true [] (.map parcelForm) = .ok b ∧
    (∀ c, IsPart b c → ∃ k s, Within (.str "parcel") parcelForm b k s c) ∧
      ∀ k s c, Within (.str "parcel") parcelForm b k s c → Carries k s c := by
  obtain ⟨b, h⟩ := Outcome.isOk_iff.1
    (by decide +kernel : (ofSchema (.str "parcel") true [] (.map parcelForm)).isOk = true)
  exact ⟨b, h, carries_of_isPart h⟩

/-- Labels, of which several can be chosen. -/
def labelsSchema : Value :=
  .record [("type", .str "array"), ("items", .record [("enum", .texts ["fragile", "heavy"])])]

theorem no_choices_labels : ∃ form b, Schema.toForm "post" labelsSchema = .ok form ∧
    ofSchema (.str "labels") false [] (.map form) = .ok b ∧ b.type = "options" ∧
      b.choices? = none ∧ ∃ items, Fields.get? "items" form = some (.map items) ∧
        Fields.get? "options" items = some (.texts ["fragile", "heavy"]) := by
  refine ⟨_, _, rfl, rfl, ?_, ?_, _, rfl, ?_⟩
  · decide
  · rfl
  · rfl

end NodeForge.Source
