import NodeForge.OpenApi.Body
import NodeForge.Proofs.Document.Parts
import NodeForge.Proofs.OpenApi.Declarations

/-!
# What the body of an operation declares

The body of an operation is its own one, or else what its parameters declare for it
(`Mention.HasBody`). Under each content type it declares a schema, which for plain text is that of
an object with one field, called after the body's description (`IsSchemaAt`). Both are said from
the declarations alone; `hasBody_of_bodyOf` and `isSchemaAt_of_mediaForm` say that the staging reads
nothing else.
-/

namespace NodeForge.OpenApi

/-! ### Bodies -/

/-- The entry for a content type in a body, if it is a mapping. -/
def mediaOf? (contentType : Text) (body : Fields) : Option Fields :=
  (((Fields.get "content" body).orElse (.map [])).fields?.map (Fields.get contentType)).bind
    Value.fields?

/-- Whether a body is what a declaration for the place `body` makes: JSON with its schema, mandatory
if the declaration is, and with its description. -/
structure IsBodyFor (raw body : Fields) : Prop where
  description : Fields.get "description" body = Fields.get "description" raw
  required : isRequired body = isRequired raw
  json : ∃ media, mediaOf? jsonType body = some media ∧
    Fields.get "schema" media = (Fields.get "schema" raw).orElse (.map [])
  others : ∀ contentType, contentType ≠ jsonType → mediaOf? contentType body = none

/-- Whether an entry is the property that a declaration makes: its schema with its description, if
it has one, under its name. A pair of keys is no name, and null stands for it. -/
structure IsFormProperty (raw : Fields) (e : Scalar × Value) : Prop where
  key : nameOf raw = .scalar e.1 ∨ ∃ a b, nameOf raw = .pair a b ∧ e.1 = .null
  schema : ∃ v, schemaOf raw = .ok v ∧
    ((descriptionOf raw = none ∧ e.2 = v) ∨ ∃ description fields,
      descriptionOf raw = some description ∧ v = .map fields ∧
        e.2 = .map (Fields.put "description" (.str description) fields))

/-- Whether a body is what declarations for form data make together: an object with one property for
each of them, of which the mandatory ones are required. -/
structure IsFormBodyFor (raws : List Fields) (body : Fields) : Prop where
  description : Fields.get "description" body = .null
  form : ∃ media schema properties, mediaOf? formType body = some media ∧
    Fields.get "schema" media = .map schema ∧
    Fields.get "type" schema = .str "object" ∧
    Fields.get "properties" schema = .map properties ∧
    Fields.get "required" schema = .list ((raws.filter isRequired).map nameOf) ∧
    List.Forall₂ IsFormProperty raws properties
  others : ∀ contentType, contentType ≠ formType → mediaOf? contentType body = none

/-- Which body an operation has, if it has one. Its own body counts if it is a mapping, then the
first declaration in force for the place `body`, then those for form data. -/
inductive Mention.HasBody (m : Mention) : Option Fields → Prop
  | own {body : Fields} (h : Fields.get "requestBody" m.fields = .map body) : m.HasBody (some body)
  | declared {raw body : Fields} {rest : List Fields}
    (hown : ∀ own, Fields.get "requestBody" m.fields ≠ .map own)
    (h : m.inForce.filter (isIn "body") = raw :: rest) (hbody : IsBodyFor raw body) :
    m.HasBody (some body)
  | form {body : Fields} (hown : ∀ own, Fields.get "requestBody" m.fields ≠ .map own)
    (hdeclared : m.inForce.filter (isIn "body") = [])
    (h : m.inForce.filter (isIn "formData") ≠ [])
    (hbody : IsFormBodyFor (m.inForce.filter (isIn "formData")) body) : m.HasBody (some body)
  | none (hown : ∀ own, Fields.get "requestBody" m.fields ≠ .map own)
    (hdeclared : m.inForce.filter (isIn "body") = [])
    (hform : m.inForce.filter (isIn "formData") = []) : m.HasBody none

/-- A body with one content type has an entry for this one alone. -/
theorem mediaOf?_eq {body : Fields} {own : Text} {media : Fields}
    (h : Fields.get "content" body = .record [(own, .map media)]) (contentType : Text) :
    mediaOf? contentType body = if contentType = own then some media else none := by
  have hcontent : (Fields.get "content" body).orElse (.map []) = .record [(own, .map media)] := by
    rw [h]
    rfl
  have hget : Fields.get contentType [(Scalar.str own, Value.map media)] =
      if contentType = own then .map media else .null := by
    rw [Fields.get, Fields.get?, List.lookup_cons, Scalar.beq_str]
    by_cases hsame : contentType = own
    · rw [if_pos hsame, beq_iff_eq.2 hsame]
      rfl
    · rw [if_neg hsame, beq_eq_false_iff_ne.2 hsame]
      rfl
  rw [mediaOf?, hcontent]
  show (Fields.get contentType [(Scalar.str own, Value.map media)]).fields? = _
  rw [hget]
  by_cases hsame : contentType = own
  · rw [if_pos hsame, if_pos hsame]
    rfl
  · rw [if_neg hsame, if_neg hsame]
    rfl

theorem isBodyFor_bodyOfParameter (raw : Fields) : IsBodyFor raw (bodyOfParameter raw) := by
  have hcontent : Fields.get "content" (bodyOfParameter raw) = .record [(jsonType,
      .record [("schema", (Fields.get "schema" raw).orElse (.map []))])] := rfl
  have hmedia := mediaOf?_eq hcontent
  refine ⟨rfl, ?_, ⟨_, (hmedia jsonType).trans (if_pos rfl), rfl⟩, fun contentType hne =>
    (hmedia contentType).trans (if_neg hne)⟩
  -- a declaration that does not say whether it is mandatory is not
  show ((Fields.get? "required" raw).getD (.bool false)).truthy =
    ((Fields.get? "required" raw).getD .null).truthy
  cases Fields.get? "required" raw <;> rfl

theorem isFormProperty_of_propertyKey {raw : Fields} {e : Scalar × Value}
    (hkey : propertyKey (nameOf raw) = .ok e.1) (hschema : describedSchema raw = .ok e.2) :
    IsFormProperty raw e := by
  refine ⟨eq_of_propertyKey hkey, ?_⟩
  obtain ⟨v, hv, hschema⟩ := Outcome.bind_eq_ok.1 hschema
  refine ⟨v, hv, ?_⟩
  split at hschema
  · next hnone =>
    rw [Outcome.pure_eq_ok] at hschema
    exact Or.inl ⟨hnone, hschema.symm⟩
  · next description hsome =>
    obtain ⟨fields, hfields, hschema⟩ := Outcome.bind_eq_ok.1 hschema
    rw [Outcome.orFault_eq_ok, Value.fields?_eq_some] at hfields
    rw [Outcome.pure_eq_ok] at hschema
    exact Or.inr ⟨description, fields, hsome, hfields, hschema.symm⟩

theorem isFormBodyFor_of_bodyOfForm {raws : List Fields} {body : Fields}
    (h : bodyOfForm raws = .ok body) : IsFormBodyFor raws body := by
  obtain ⟨properties, hproperties, h⟩ := Outcome.bind_eq_ok.1 h
  rw [propertiesOf, Outcome.mapM_eq_ok] at hproperties
  rw [Outcome.pure_eq_ok] at h
  have hcontent : Fields.get "content" body = .record [(formType, .record [("schema", .map
      (objectSchema properties ++ [(.str "required", .list ((raws.filter isRequired).map nameOf))]))
      ])] := by
    rw [← h]
    rfl
  have hmedia := mediaOf?_eq hcontent
  refine ⟨by rw [← h]; rfl, ⟨_, _, properties, (hmedia formType).trans (if_pos rfl), rfl, rfl, rfl,
    rfl, hproperties.imp fun raw e he => ?_⟩, fun contentType hne =>
    (hmedia contentType).trans (if_neg hne)⟩
  obtain ⟨key, hkey, he⟩ := Outcome.bind_eq_ok.1 he
  obtain ⟨v, hv, he⟩ := Outcome.bind_eq_ok.1 he
  rw [Outcome.pure_eq_ok] at he
  rw [← he]
  exact isFormProperty_of_propertyKey hkey hv

/-- **The body of an operation.** What is staged as its body is what it has. -/
theorem hasBody_of_bodyOf {m : Mention} {resource : Text} {body : Option Fields}
    (h : bodyOf (m.context resource) = .ok body) : m.HasBody body := by
  unfold bodyOf at h
  split at h
  · next fields hfields =>
    rw [Except.ok.injEq] at h
    rw [← h]
    exact .own hfields
  · next hown =>
    obtain ⟨declared, hdeclared, h⟩ := Outcome.bind_eq_ok.1 h
    obtain ⟨-, hdeclares⟩ := declares_of_declarations hdeclared
    rw [declaredIn_eq hdeclares, declaredIn_eq hdeclares] at h
    split at h
    · next raw rest hraw =>
      rw [Outcome.pure_eq_ok] at h
      rw [← h]
      exact .declared hown hraw (isBodyFor_bodyOfParameter raw)
    · next hnone =>
      split at h
      · next hform =>
        rw [Outcome.pure_eq_ok] at h
        rw [← h]
        exact .none hown hnone hform
      · next hform =>
        obtain ⟨fields, hfields, h⟩ := Outcome.bind_eq_ok.1 h
        rw [Outcome.pure_eq_ok] at h
        rw [← h]
        exact .form hown hnone hform (isFormBodyFor_of_bodyOfForm hfields)

/-! ### Schemas -/

/-- The word signs of the first word of a text, in small letters. -/
def firstWord (text : Text) : Text :=
  Text.lower (((Text.words text).headD []).filter (Sign.meets Letter.isWordChar))

/-- Whether the field of a plain-text body is called after a description: by its first word, and
`body` where there is none. -/
structure IsCalledAfter (description : Value) (name : Text) : Prop where
  named : ∀ text, description = .str text → firstWord text ≠ [] → name = firstWord text
  unnamed : (∀ text, description = .str text → firstWord text = []) → name = "body"

/-- Whether a value is the schema that a body declares under a content type: the one in the entry,
where an empty schema stands for a missing one. For plain text it is that of an object whose one
property, a text unless the entry says otherwise, is required if the body is. Schemas are
composed. -/
inductive IsSchemaAt (body media : Fields) : Text → Value → Prop
  | declared {contentType : Text} {schema : Value} (htype : contentType ≠ plainType)
    (h : Schema.compose ((Fields.get "schema" media).orElse (.map [])) = .ok schema) :
    IsSchemaAt body media contentType schema
  | plain {name : Text} {field : Value} {schema : Fields}
    (hname : IsCalledAfter (Fields.get "description" body) name)
    (hfield : Schema.compose ((Fields.get "schema" media).orElse
      (.record [("type", .str "string")])) = .ok field)
    (htype : Fields.get "type" schema = .str "object")
    (hproperties : Fields.get "properties" schema = .record [(name, field)])
    (hrequired : Fields.get "required" schema =
      .list (if isRequired body then [.str name] else [])) :
    IsSchemaAt body media plainType (.map schema)

theorem isCalledAfter_of_plainFieldName {body : Fields} {name : Text}
    (h : plainFieldName body = .ok name) : IsCalledAfter (Fields.get "description" body) name := by
  have hwords {text : Text} (hname : (if (firstWord text).isEmpty then plainFieldDefault
      else firstWord text) = name) :
      (firstWord text ≠ [] → name = firstWord text) ∧ (firstWord text = [] → name = "body") := by
    rw [← hname]
    refine ⟨fun hne => if_neg (mt List.isEmpty_iff.1 hne), fun hempty => ?_⟩
    rw [hempty]
    rfl
  unfold plainFieldName at h
  split at h
  · next bs hbytes =>
    split at h
    · rw [Except.ok.injEq] at h
      refine ⟨fun text htext => ?_, fun _ => h.symm⟩
      rw [htext] at hbytes
      cases text <;> cases hbytes
    · cases h
  · obtain ⟨text, htext, h⟩ := Outcome.bind_eq_ok.1 h
    rw [Outcome.pure_eq_ok] at h
    obtain ⟨hnamed, hunnamed⟩ := hwords h
    have hgiven {own : Text} (hown : Fields.get "description" body = .str own) : own = text := by
      rw [hown] at htext
      cases own <;> cases htext <;> rfl
    refine ⟨fun own hown => ?_, fun hempty => hunnamed ?_⟩
    · rw [hgiven hown]
      exact hnamed
    · by_cases htruthy : (Fields.get "description" body).truthy = true
      · rw [Value.orElse, if_pos htruthy] at htext
        cases hvalue : Fields.get "description" body with
        | scalar s =>
          cases s with
          | str own =>
            rw [hvalue] at htext
            cases htext
            exact hempty text hvalue
          | _ =>
            rw [hvalue] at htext
            cases htext
        | _ =>
          rw [hvalue] at htext
          cases htext
      · -- a description that is not given counts as an empty one
        rw [Value.orElse, if_neg htruthy] at htext
        cases htext
        rfl

/-- **The schema of a content type.** The form for a content type is that of the schema that the
body declares under it. -/
theorem isSchemaAt_of_mediaForm {method contentType : Text} {media body form : Fields}
    (h : mediaForm method contentType media body = .ok form) :
    ∃ schema, IsSchemaAt body media contentType schema ∧
      Schema.toForm method schema = .ok form := by
  unfold mediaForm at h
  split at h
  · next hplain =>
    obtain ⟨schema, hschema, h⟩ := Outcome.bind_eq_ok.1 h
    rw [Outcome.lift_eq_ok] at hschema
    obtain ⟨name, hname, hschema⟩ := Outcome.bind_eq_ok.1 hschema
    obtain ⟨field, hfield, hschema⟩ := Outcome.bind_eq_ok.1 hschema
    rw [Outcome.pure_eq_ok] at hschema
    rw [beq_iff_eq.1 hplain]
    refine ⟨.map schema, .plain (isCalledAfter_of_plainFieldName hname) hfield ?_ ?_ ?_, h⟩
    all_goals
      rw [← hschema]
      rfl
  · next hplain =>
    obtain ⟨composed, hcomposed, h⟩ := Outcome.bind_eq_ok.1 h
    rw [Outcome.lift_eq_ok] at hcomposed
    exact ⟨composed, .declared (fun heq => hplain (beq_iff_eq.2 heq)) hcomposed, h⟩

end NodeForge.OpenApi
