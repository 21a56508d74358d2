import NodeForge.OpenApi.Body
import NodeForge.Proofs.OpenApi.Alike
import NodeForge.Proofs.OpenApi.Declarations
import NodeForge.Proofs.Schema.Plain

/-!
# The older style of declaring an operation

In the older style a declaration holds its schema itself, and the body of a request is declared
among the parameters. `newerEntry` rewrites such an entry: the schema keys of a declaration move
under `schema`, and what declares the body becomes a `requestBody`. Both styles are staged alike
(`stages_newerEntry`).

The rewriting is defined here, key by key and apart from the functions that read the older style.
For form parameters the two ways differ in how often a schema is composed: the older style composes
each property by itself and the whole once more, the newer one only the whole. This makes no
difference since composing twice is composing once.
-/

namespace NodeForge.OpenApi

/-! ### Rewriting an entry -/

/-- The keys of a schema that a declaration of the older style may hold itself. -/
def movedKeys : List Text :=
  ["type", "format", "enum", "default", "items", "minimum", "maximum", "pattern"]

/-- The schema that a declaration of the older style stands for: what it holds under these keys, and
the type of a text where it gives none. -/
def movedSchema (raw : Fields) : Fields :=
  let moved := movedKeys.filterMap fun key => (Fields.get? key raw).map fun v => (Scalar.str key, v)
  if Fields.has "type" raw then moved else moved ++ [(.str "type", .str "string")]

/-- A declaration with its schema in a place of its own. -/
def newerDeclaration (raw : Fields) : Fields :=
  Fields.put "schema" (.map (movedSchema raw))
    (raw.filter fun e => !movedKeys.any fun key => e.1 == .str key)

/-- The body that a `body` parameter stands for. -/
def newerBody (raw : Fields) : Fields :=
  (raw.filter fun e => e.1 == .str "description" || e.1 == .str "required") ++
    [(.str "content", .record [
      ("application/json", .record [("schema", Fields.get "schema" raw)])])]

/-- The name of a declaration that has a text for it. -/
def nameText (raw : Fields) : Text := (nameOf raw).text?.getD []

/-- The entry for the description of a declaration, if it has one. -/
def descriptionEntry (raw : Fields) : Fields :=
  (descriptionOf raw).toList.map fun d => (.str "description", .str d)

/-- The property that a form parameter stands for: its schema, and its description if there is
one. -/
def newerProperty (raw : Fields) : Fields :=
  movedSchema raw ++ descriptionEntry raw

/-- The schema of an object with the given properties, some of them required. -/
def formSchema (properties : Fields) (required : List Value) : Fields :=
  [(.str "type", .str "object"), (.str "properties", .map properties),
    (.str "required", .list required)]

/-- The body that form parameters stand for together. -/
def newerForm (form : List Fields) : Fields :=
  [(.str "content", .record [
    ("application/x-www-form-urlencoded", .record [("schema", .map (formSchema
      (form.map fun raw => (.str (nameText raw), .map (newerProperty raw)))
      ((form.filter isRequired).map nameOf)))])])]

/-- Whether a declaration is one of a body: as a whole or as a part of a form. -/
def isOfBody (raw : Fields) : Bool := isIn "body" raw || isIn "formData" raw

/-- An entry of the older style with the given declarations, rewritten. -/
def newerEntry (raws : List Fields) (entry : Fields) : Fields :=
  let others := raws.filter fun raw => !isOfBody raw
  let entry :=
    Fields.put "parameters" (.list (others.map fun raw => .map (newerDeclaration raw))) entry
  match raws.filter (isIn "body"), raws.filter (isIn "formData") with
  | raw :: _, _ => Fields.put "requestBody" (.map (newerBody raw)) entry
  | [], [] => entry
  | [], form => Fields.put "requestBody" (.map (newerForm form)) entry

/-- Whether declarations are in the older style: with texts for names and different keys, with a
mapping as the schema of a body and none as that of another parameter, and with mappings alone in
what the schemas of form parameters combine. -/
structure IsOlderStyle (raws : List Fields) : Prop where
  named : ∀ raw ∈ raws, ∃ name, nameOf raw = .str name
  keys : ∀ raw ∈ raws, ∃ key, declarationKey? raw = some key
  apart : Entries.Apart (keyed raws)
  bodies : ∀ raw ∈ raws, isIn "body" raw = true → ∃ es, Fields.get "schema" raw = .map es
  inline : ∀ raw ∈ raws, ∀ place ∈ (["path", "query", "formData"] : List Text),
    isIn place raw = true → (Fields.get "schema" raw).fields? = none
  combined : ∀ raw ∈ raws, isIn "formData" raw = true →
    ∀ node ∈ Schema.subschemas (.map (movedSchema raw)), Schema.CombinesMappings node

/-! ### Reading declarations of either style -/

theorem keys_keyed (raws : List Fields) :
    Entries.keys (keyed raws) = raws.filterMap declarationKey? := by
  rw [Entries.keys, keyed, List.map_filterMap]
  refine List.filterMap_congr fun raw _ => ?_
  cases declarationKey? raw <;> rfl

theorem declarationOf_eq {raw : Fields} {name : Text} {key : DeclarationKey}
    (hname : nameOf raw = .str name) (hkey : declarationKey? raw = some key) :
    declarationOf (.map raw) = .ok (some (key, raw)) := by
  have hhas : Fields.has "name" raw = true := by
    rw [Fields.has, Option.isSome_iff_ne_none]
    intro hnone
    rw [nameOf, Fields.get, hnone] at hname
    cases hname
  obtain ⟨hplace, hnamePart⟩ := declarationKey?_eq_some.1 hkey
  rw [nameOf] at hnamePart
  unfold declarationOf
  dsimp only
  rw [if_pos hhas, hplace, nameOf, hnamePart]
  rfl

/-- Named declarations under different keys are all in force. -/
theorem declarations_eq {ctx : Context} {raws : List Fields} (hshared : ctx.shared = [])
    (hparameters : parametersOf ctx.entry = .ok (raws.map Value.map))
    (hnamed : ∀ raw ∈ raws, ∃ name, nameOf raw = .str name)
    (hkeyed : ∀ raw ∈ raws, ∃ key, declarationKey? raw = some key)
    (hapart : Entries.Apart (keyed raws)) : declarations ctx = .ok (keyed raws) := by
  have hfound : (raws.map Value.map).mapM declarationOf =
      .ok (raws.map fun raw => (declarationKey? raw).map fun key => (key, raw)) := by
    rw [Outcome.mapM_eq_ok, List.forall₂_map_left_iff, List.forall₂_map_right_iff,
      List.forall₂_same]
    intro raw hraw
    obtain ⟨name, hname⟩ := hnamed raw hraw
    obtain ⟨key, hkey⟩ := hkeyed raw hraw
    rw [declarationOf_eq hname hkey, hkey]
    rfl
  have hrows : (raws.map fun raw => (declarationKey? raw).map fun key => (key, raw)).filterMap id =
      keyed raws := by
    rw [List.filterMap_map]
    rfl
  unfold declarations
  rw [hparameters, hshared]
  show (do
    let found ← (raws.map Value.map).mapM declarationOf
    return Entries.ofList (found.filterMap id)) = _
  rw [hfound]
  show Except.ok (Entries.ofList (List.filterMap id _)) = _
  rw [hrows, Entries.ofList_of_apart hapart]

theorem declaredIn_keyed {raws : List Fields}
    (hkeyed : ∀ raw ∈ raws, ∃ key, declarationKey? raw = some key) (place : Text) :
    declaredIn place (keyed raws) = raws.filter (isIn place) := by
  induction raws with
  | nil => rfl
  | cons raw raws ih =>
    obtain ⟨key, hkey⟩ := hkeyed raw List.mem_cons_self
    have hrest := ih fun raw' hraw' => hkeyed raw' (List.mem_cons_of_mem _ hraw')
    have hcons : keyed (raw :: raws) = (key, raw) :: keyed raws := by
      rw [keyed, List.filterMap_cons, hkey]
      rfl
    rw [hcons, declaredIn, List.filter_cons, key_beq_str_eq_isIn hkey, List.filter_cons, ← hrest]
    cases isIn place raw <;> rfl

/-! ### Rewritten declarations -/

theorem get?_newerDeclaration {key : Text} (hschema : key ≠ "schema") (hmoved : key ∉ movedKeys)
    (raw : Fields) : Fields.get? key (newerDeclaration raw) = Fields.get? key raw := by
  rw [newerDeclaration, Fields.get?_put, if_neg hschema]
  refine Entries.lookup_filter
    (p := fun k => !movedKeys.any fun key => k == Scalar.str key) (fun k hk => ?_) raw
  rw [Scalar.str_beq_iff.1 hk, Bool.not_eq_true', List.any_eq_false]
  intro key' hkey' hsame
  rw [Scalar.beq_str, beq_iff_eq] at hsame
  exact hmoved (hsame ▸ hkey')

theorem get_newerDeclaration {key : Text} (hschema : key ≠ "schema") (hmoved : key ∉ movedKeys)
    (raw : Fields) : Fields.get key (newerDeclaration raw) = Fields.get key raw := by
  rw [Fields.get, get?_newerDeclaration hschema hmoved, Fields.get]

theorem nameOf_newerDeclaration (raw : Fields) : nameOf (newerDeclaration raw) = nameOf raw :=
  get_newerDeclaration (by decide) (by decide) raw

theorem declarationKey?_newerDeclaration (raw : Fields) :
    declarationKey? (newerDeclaration raw) = declarationKey? raw := by
  rw [declarationKey?, get_newerDeclaration (by decide) (by decide), nameOf_newerDeclaration,
    declarationKey?]

theorem isIn_newerDeclaration (place : Text) (raw : Fields) :
    isIn place (newerDeclaration raw) = isIn place raw := by
  rw [isIn, get_newerDeclaration (by decide) (by decide), isIn]

/-- What is taken over under some keys is what stands under them. -/
theorem get?_filterMap (keys : List Text) (key : Text) (raw : Fields) :
    Fields.get? key (keys.filterMap fun k => (Fields.get? k raw).map fun v => (Scalar.str k, v)) =
      if key ∈ keys then Fields.get? key raw else none := by
  induction keys with
  | nil => rfl
  | cons k keys ih =>
    rw [List.filterMap_cons]
    cases hk : Fields.get? k raw with
    | none =>
      show Fields.get? key (keys.filterMap _) = _
      rw [ih]
      by_cases hsame : key = k
      · rw [hsame, hk, ite_self, ite_self]
      · simp only [List.mem_cons, hsame, false_or]
    | some v =>
      show ((Scalar.str k, v) :: keys.filterMap _).lookup (Scalar.str key) = _
      rw [List.lookup_cons, Scalar.beq_str]
      by_cases hsame : key = k
      · rw [hsame, BEq.refl, if_pos List.mem_cons_self, hk]
      · rw [beq_eq_false_iff_ne.2 hsame]
        simp only [List.mem_cons, hsame, false_or]
        exact ih

/-- What moves is what the older style is read as. -/
theorem movedSchema_eq (raw : Fields) : movedSchema raw = inlineSchema raw := by
  have htype : Fields.has "type" (inlineKeys.filterMap fun key =>
      (Fields.get? key raw).map fun v => (Scalar.str key, v)) = Fields.has "type" raw := by
    rw [Fields.has, get?_filterMap, if_pos (by decide), Fields.has]
  unfold inlineSchema
  dsimp only
  rw [htype]
  rfl

theorem schemaOf_of_fields?_eq_none {raw : Fields}
    (h : (Fields.get "schema" raw).fields? = none) :
    schemaOf raw = Schema.compose (.map (movedSchema raw)) := by
  rw [movedSchema_eq, schemaOf]
  split
  · next es hes =>
    rw [hes] at h
    cases h
  · rfl

/-- A rewritten declaration is read as before. -/
theorem readsAlike_newerDeclaration {raw : Fields}
    (h : (Fields.get "schema" raw).fields? = none) : ReadsAlike raw (newerDeclaration raw) where
  name := nameOf_newerDeclaration raw
  required := by rw [isRequired, get_newerDeclaration (by decide) (by decide), isRequired]
  description := by rw [descriptionOf, get_newerDeclaration (by decide) (by decide), descriptionOf]
  exampleValue := by rw [exampleOf, get_newerDeclaration (by decide) (by decide), exampleOf]
  schema := by
    have hnewer : Fields.get "schema" (newerDeclaration raw) = .map (movedSchema raw) := by
      rw [newerDeclaration, Fields.get, Fields.get?_put, if_pos rfl]
      rfl
    rw [schemaOf_of_fields?_eq_none h, schemaOf, hnewer]

/-! ### Parameters -/

variable {raws : List Fields} {ctx : Context}

/-- An entry of the older style in its newer form, with all else as it is. -/
def newerContext (raws : List Fields) (ctx : Context) : Context :=
  { ctx with entry := newerEntry raws ctx.entry }

/-- The rewritten declarations. -/
def newerDeclarations (raws : List Fields) : List Fields :=
  (raws.filter fun raw => !isOfBody raw).map newerDeclaration

theorem parametersOf_of_get? {entry : Fields} {xs : List Value}
    (h : Fields.get? "parameters" entry = some (.list xs)) : parametersOf entry = .ok xs := by
  rw [parametersOf, Fields.get, h, Option.getD_some, Value.orElse]
  split
  · rfl
  · next hempty =>
    cases xs with
    | nil => rfl
    | cons x xs => exact absurd rfl hempty

theorem parametersOf_newerEntry (raws : List Fields) (entry : Fields) :
    parametersOf (newerEntry raws entry) = .ok ((newerDeclarations raws).map Value.map) := by
  refine parametersOf_of_get? ?_
  have hput (body : Fields) (entry : Fields) :
      Fields.get? "parameters" (Fields.put "requestBody" (.map body) entry) =
        Fields.get? "parameters" entry := by
    rw [Fields.get?_put, if_neg (by decide)]
  unfold newerEntry
  dsimp only
  split
  all_goals simp only [hput, Fields.get?_put, if_pos, newerDeclarations, List.map_map]
  all_goals rfl

theorem IsOlderStyle.exists_declarationKey (h : IsOlderStyle raws) {raw : Fields}
    (hraw : raw ∈ newerDeclarations raws) : ∃ key, declarationKey? raw = some key := by
  obtain ⟨older, holder, rfl⟩ := List.mem_map.1 hraw
  rw [declarationKey?_newerDeclaration]
  exact h.keys older (List.mem_of_mem_filter holder)

/-- The other declarations keep their names and keys. -/
theorem declarations_newerContext (hshared : ctx.shared = []) (h : IsOlderStyle raws) :
    declarations (newerContext raws ctx) = .ok (keyed (newerDeclarations raws)) := by
  refine declarations_eq hshared (parametersOf_newerEntry raws ctx.entry) (fun raw hraw => ?_)
    (fun raw hraw => h.exists_declarationKey hraw) ?_
  · obtain ⟨older, holder, rfl⟩ := List.mem_map.1 hraw
    rw [nameOf_newerDeclaration]
    exact h.named older (List.mem_of_mem_filter holder)
  · have hsublist : (Entries.keys (keyed (newerDeclarations raws))).Sublist
        (Entries.keys (keyed raws)) := by
      rw [keys_keyed, keys_keyed, newerDeclarations, List.filterMap_map]
      have hkey : declarationKey? ∘ newerDeclaration = declarationKey? := by
        funext raw
        exact declarationKey?_newerDeclaration raw
      rw [hkey]
      exact List.filter_sublist.filterMap _
    exact h.apart.sublist hsublist

theorem isIn_unique {place place' : Text} {raw : Fields} (h : isIn place raw = true)
    (h' : isIn place' raw = true) : place = place' := by
  rw [isIn, isText_iff] at h h'
  rw [h] at h'
  cases h'
  rfl

/-- What is declared for path or query stays there, rewritten. -/
theorem declaredIn_newerDeclarations (h : IsOlderStyle raws) {place : Text}
    (hbody : place ≠ "body") (hform : place ≠ "formData") :
    declaredIn place (keyed (newerDeclarations raws)) =
      (declaredIn place (keyed raws)).map newerDeclaration := by
  have hothers : (raws.filter fun raw => !isOfBody raw).filter (isIn place) =
      raws.filter (isIn place) := by
    rw [List.filter_filter]
    refine List.filter_congr fun raw _ => ?_
    cases hplace : isIn place raw with
    | false => rfl
    | true =>
      have hnot : isOfBody raw = false := by
        rw [isOfBody, Bool.or_eq_false_iff, Bool.eq_false_iff, Bool.eq_false_iff]
        exact ⟨fun hin => hbody (isIn_unique hplace hin), fun hin => hform (isIn_unique hplace hin)⟩
      rw [hnot]
      rfl
  rw [declaredIn_keyed fun raw hraw => h.exists_declarationKey hraw, declaredIn_keyed h.keys,
    newerDeclarations, List.filter_map]
  show ((raws.filter fun raw => !isOfBody raw).filter
    fun raw => isIn place (newerDeclaration raw)).map newerDeclaration = _
  simp only [isIn_newerDeclaration]
  rw [hothers]

theorem stageParameters_newerContext (hshared : ctx.shared = [])
    (hparameters : parametersOf ctx.entry = .ok (raws.map Value.map)) (h : IsOlderStyle raws) :
    stageParameters (newerContext raws ctx) = stageParameters ctx := by
  have holder : declarations ctx = .ok (keyed raws) :=
    declarations_eq hshared hparameters h.named h.keys h.apart
  have halike {place : Text} (hplace : place ∈ (["path", "query", "formData"] : List Text)) :
      ∀ raw ∈ declaredIn place (keyed raws), ReadsAlike raw (newerDeclaration raw) := by
    intro raw hraw
    rw [declaredIn_keyed h.keys, List.mem_filter] at hraw
    exact readsAlike_newerDeclaration (h.inline raw hraw.1 place hplace hraw.2)
  rw [stageParameters_eq (declarations_newerContext hshared h), stageParameters_eq holder,
    declaredIn_newerDeclarations h (by decide) (by decide),
    declaredIn_newerDeclarations h (by decide) (by decide)]
  exact parametersFrom_map (halike (by simp)) (halike (by simp))

/-! ### Bodies with one content type -/

/-- What the body of a request makes. -/
def bodiesFrom (method : Text) (body : Fields) : Except Failure (List RequestBody) := do
  let content := (Fields.get "content" body).orElse (.map [])
  let parts ← bodyTypes.mapM (mediaPart method content body)
  return bodiesOf method (descriptionOf body) (parts.filterMap id)

theorem stageBodies_eq {body : Fields} (h : bodyOf ctx = .ok (some body)) (hne : body ≠ []) :
    stageBodies ctx = bodiesFrom ctx.method body := by
  unfold stageBodies
  rw [h]
  cases body with
  | nil => exact absurd rfl hne
  | cons e rest => rfl

/-- What a single content type makes, whose schema is composed to a given value. -/
def partFrom (method contentType : Text) (composed : Except Fault Value) :
    Except Failure (Option MediaPart) := do
  let form ← Schema.toForm method (← composed)
  let (mandatory, optional) ← Schema.splitRequired (.map form)
  return some { contentType, mandatory, optional }

/-- Form data and JSON make what their schema is composed to. -/
theorem mediaPart_eq {method contentType : Text} {content body : Fields} {schema : Fields}
    (htype : contentType ≠ plainType)
    (hcontent : Fields.get contentType content = .record [("schema", .map schema)]) :
    mediaPart method (.map content) body contentType =
      partFrom method contentType (Schema.compose (.map schema)) := by
  have hschema : (Value.map schema).orElse (.map []) = .map schema := by
    cases schema <;> rfl
  have hfield : (Value.map content).field contentType =
      Except.ok (.record [("schema", .map schema)]) := by
    rw [← hcontent]
    rfl
  have hform : mediaForm method contentType [(.str "schema", .map schema)] body =
      (do Schema.toForm method (← Schema.compose (.map schema)) : Except Failure Fields) := by
    have hget : Fields.get "schema" [(.str "schema", .map schema)] = .map schema := rfl
    unfold mediaForm
    rw [if_neg (by simpa using htype)]
    dsimp only
    rw [hget, hschema]
  unfold mediaPart
  rw [hfield]
  show (do
    let form ← mediaForm method contentType [(.str "schema", .map schema)] body
    let (mandatory, optional) ← Schema.splitRequired (.map form)
    return some { contentType, mandatory, optional } : Except Failure (Option MediaPart)) = _
  rw [hform, bind_assoc]
  rfl

/-- The bodies that a part makes alone. -/
def bodiesOfPart (method : Text) (description : Option Text)
    (part : Except Failure (Option MediaPart)) : Except Failure (List RequestBody) := do
  return bodiesOf method description (← part).toList

/-- A body with one content type makes the bodies of its part. -/
theorem bodiesFrom_eq {method contentType : Text} {body schema : Fields}
    (htype : contentType ∈ ([formType, jsonType] : List Text))
    (hcontent : Fields.get "content" body =
      .map [(.str contentType, .record [("schema", .map schema)])]) :
    bodiesFrom method body = bodiesOfPart method (descriptionOf body)
      (partFrom method contentType (Schema.compose (.map schema))) := by
  have hpart : mediaPart method (.map [(.str contentType, .record [("schema", .map schema)])]) body
      contentType = partFrom method contentType (Schema.compose (.map schema)) := by
    refine mediaPart_eq ?_ ?_
    · rintro rfl
      exact absurd htype (by decide)
    · rw [Fields.get, Fields.get?, List.lookup_cons, BEq.refl]
      rfl
  have hother {other : Text} (hne : other ≠ contentType) :
      mediaPart method (.map [(.str contentType, .record [("schema", .map schema)])]) body other =
        .ok none := by
    have hfield : (Value.map [(.str contentType, .record [("schema", .map schema)])]).field other =
        Except.ok .null := by
      show Except.ok (Fields.get other _) = _
      rw [Fields.get, Fields.get?, List.lookup_cons, Scalar.beq_str, beq_eq_false_iff_ne.2 hne]
      rfl
    unfold mediaPart
    rw [hfield]
    rfl
  unfold bodiesFrom
  rw [hcontent]
  show (do
    let parts ← bodyTypes.mapM (mediaPart method (.map [(.str contentType, _)]) body)
    return bodiesOf method (descriptionOf body) (parts.filterMap id)) = _
  rw [bodyTypes, List.mapM_cons, List.mapM_cons, List.mapM_cons, List.mapM_nil]
  rcases List.mem_pair.1 htype with rfl | rfl
  · rw [hpart, hother (by decide), hother (by decide)]
    generalize partFrom method formType _ = part
    cases part with
    | error e => rfl
    | ok p => cases p <;> rfl
  · rw [hother (by decide), hpart, hother (by decide)]
    generalize partFrom method jsonType _ = part
    cases part with
    | error e => rfl
    | ok p => cases p <;> rfl

/-! ### Bodies of forms -/

/-- The schema of a form is composed by composing its properties. -/
theorem compose_formSchema {properties composed : Fields} {required : List Value}
    (h : properties.mapM (fun p => do return (p.1, ← Schema.compose p.2)) = Except.ok composed) :
    Schema.compose (.map (formSchema properties required)) =
      .ok (.map (formSchema composed required)) := by
  have hplain : ∀ e ∈ formSchema properties required, Schema.isCombinator e.1 = false := by
    intro e he
    simp only [formSchema, List.mem_cons, List.not_mem_nil, or_false] at he
    rcases he with rfl | rfl | rfl <;> rfl
  have hproperties : Schema.composeEntry (.str "properties", .map properties) =
      .ok (.str "properties", .map composed) := by
    show (do
      let v ← Value.map <$> properties.mapM fun p => do return (p.1, ← Schema.compose p.2)
      return (Scalar.str "properties", v)) = Except.ok _
    rw [h]
    rfl
  rw [Schema.compose_map_of_plain hplain, formSchema, List.mapM_cons, List.mapM_cons,
    hproperties]
  rfl

theorem exists_movedKey {raw : Fields} {e : Scalar × Value} (h : e ∈ movedSchema raw) :
    ∃ key ∈ movedKeys, e.1 = .str key := by
  have hmoved : ∀ e ∈ movedKeys.filterMap (fun key =>
      (Fields.get? key raw).map fun v => (Scalar.str key, v)),
      ∃ key ∈ movedKeys, e.1 = .str key := by
    intro e he
    obtain ⟨key, hkey, he⟩ := List.mem_filterMap.1 he
    obtain ⟨v, -, rfl⟩ := Option.map_eq_some_iff.1 he
    exact ⟨key, hkey, rfl⟩
  unfold movedSchema at h
  dsimp only at h
  split at h
  · exact hmoved e h
  · rcases List.mem_append.1 h with h | h
    · exact hmoved e h
    · rw [List.mem_singleton.1 h]
      exact ⟨"type", by decide, rfl⟩

theorem not_isCombinator_of_mem_movedSchema {raw : Fields} :
    ∀ e ∈ movedSchema raw, Schema.isCombinator e.1 = false := by
  intro e he
  obtain ⟨key, hkey, heq⟩ := exists_movedKey he
  have hall : ∀ key ∈ movedKeys, Schema.isCombinator (.str key) = false := by decide
  rw [heq]
  exact hall key hkey

theorem isPlainUnder_of_mem_descriptionEntry {raw : Fields} {e : Scalar × Value}
    (h : e ∈ descriptionEntry raw) :
    Schema.IsPlainUnder e.1 e.2 ∧ Schema.composeEntry e = .ok e := by
  obtain ⟨d, -, rfl⟩ := List.mem_map.1 h
  exact ⟨⟨rfl, nofun⟩, rfl⟩

section Property

variable {raw s : Fields} (h : (movedSchema raw).mapM Schema.composeEntry = .ok s)

include h

/-- In the older style a property is the composed schema with the description behind it. -/
theorem describedSchema_eq (hinline : (Fields.get "schema" raw).fields? = none) :
    describedSchema raw = .ok (.map (s ++ descriptionEntry raw)) := by
  have hcompose : Schema.compose (.map (movedSchema raw)) = .ok (.map s) := by
    rw [Schema.compose_map_of_plain not_isCombinator_of_mem_movedSchema, h]
    rfl
  rw [describedSchema, schemaOf_of_fields?_eq_none hinline, hcompose, descriptionEntry]
  cases descriptionOf raw with
  | none =>
    rw [Option.toList_none, List.map_nil, List.append_nil]
    rfl
  | some d =>
    -- No description is among the keys that move, so this one is appended.
    have hnew : ∀ k ∈ Entries.keys s, (k == Scalar.str "description") = false := by
      intro k hk
      rw [Schema.keys_mapM_composeEntry h] at hk
      obtain ⟨e, he, rfl⟩ := List.mem_map.1 hk
      obtain ⟨key, hkey, heq⟩ := exists_movedKey he
      have hall : ∀ key ∈ movedKeys, (Scalar.str key == Scalar.str "description") = false := by
        decide
      rw [heq]
      exact hall key hkey
    show Except.ok (Value.map (Entries.put _ _ s)) = _
    rw [Entries.put_eq_append hnew]
    rfl

/-- In the newer style the description is in the schema before it is composed. -/
theorem compose_newerProperty :
    Schema.compose (.map (newerProperty raw)) = .ok (.map (s ++ descriptionEntry raw)) := by
  have hplain : ∀ e ∈ newerProperty raw, Schema.isCombinator e.1 = false := by
    intro e he
    rcases List.mem_append.1 he with he | he
    · exact not_isCombinator_of_mem_movedSchema e he
    · exact (isPlainUnder_of_mem_descriptionEntry he).1.1
  have hentry : (descriptionEntry raw).mapM Schema.composeEntry = .ok (descriptionEntry raw) :=
    Outcome.mapM_eq_self fun e he => (isPlainUnder_of_mem_descriptionEntry he).2
  rw [Schema.compose_map_of_plain hplain]
  show Value.map <$> (movedSchema raw ++ descriptionEntry raw).mapM Schema.composeEntry = _
  rw [List.mapM_append, h, hentry]
  rfl

end Property

/-- Whether a property is what a form parameter makes in either style. -/
structure IsPropertyOf (raw : Fields) (p : Scalar × Value) : Prop where
  key : propertyKey (nameOf raw) = .ok p.1
  name : p.1 = .str (nameText raw)
  described : describedSchema raw = .ok p.2
  composed : Schema.compose p.2 = .ok p.2
  newer : Schema.compose (.map (newerProperty raw)) = .ok p.2

/-- The schema of a form parameter is composed once in the newer style and twice in the older one,
with the same result. -/
theorem exists_isPropertyOf {raw : Fields} {name : Text} (hname : nameOf raw = .str name)
    (hinline : (Fields.get "schema" raw).fields? = none)
    (hcombined : ∀ node ∈ Schema.subschemas (.map (movedSchema raw)),
      Schema.CombinesMappings node) : ∃ p, IsPropertyOf raw p := by
  obtain ⟨v, hv⟩ := Schema.exists_isComposed (.map (movedSchema raw)) hcombined
  obtain ⟨s, hs⟩ := Option.isSome_iff_exists.1 (hv.mapping rfl)
  rw [Value.fields?_eq_some] at hs
  subst hs
  have hentries : (movedSchema raw).mapM Schema.composeEntry = .ok s :=
    Schema.mapM_composeEntry_of_plain not_isCombinator_of_mem_movedSchema hv.result
  have htext : nameText raw = name := by
    rw [nameText, hname]
    rfl
  have hplain : Schema.IsPlain (.map (s ++ descriptionEntry raw)) := by
    rw [Schema.isPlain_map_iff]
    intro e he
    rcases List.mem_append.1 he with he | he
    · exact Schema.isPlain_map_iff.1 hv.plain e he
    · exact (isPlainUnder_of_mem_descriptionEntry he).1
  refine ⟨(.str name, .map (s ++ descriptionEntry raw)), ?_, by rw [htext],
    describedSchema_eq hentries hinline, Schema.compose_of_isPlain hplain,
    compose_newerProperty hentries⟩
  rw [hname]
  rfl

/-- Form parameters make the same bodies in both styles. -/
theorem exists_bodyOfForm {form : List Fields}
    (hnamed : ∀ raw ∈ form, ∃ name, nameOf raw = .str name)
    (hinline : ∀ raw ∈ form, (Fields.get "schema" raw).fields? = none)
    (hcombined : ∀ raw ∈ form, ∀ node ∈ Schema.subschemas (.map (movedSchema raw)),
      Schema.CombinesMappings node) (method : Text) :
    ∃ body, bodyOfForm form = .ok body ∧ body ≠ [] ∧
      bodiesFrom method body = bodiesFrom method (newerForm form) := by
  have hproperties : ∃ properties, List.Forall₂ IsPropertyOf form properties := by
    refine Outcome.exists_forall₂ fun raw hraw => ?_
    obtain ⟨name, hname⟩ := hnamed raw hraw
    exact exists_isPropertyOf hname (hinline raw hraw) (hcombined raw hraw)
  obtain ⟨properties, hproperties⟩ := hproperties
  have hmade : propertiesOf form = .ok properties := by
    rw [propertiesOf, Outcome.mapM_eq_ok]
    refine hproperties.imp fun raw p hp => ?_
    rw [hp.key, hp.described]
    rfl
  have holder : properties.mapM (fun p => do return (p.1, ← Schema.compose p.2)) =
      Except.ok properties := by
    refine Outcome.mapM_eq_self fun p hp => ?_
    obtain ⟨raw, -, hp⟩ := Outcome.exists_left_of_mem hproperties hp
    rw [hp.composed]
    rfl
  have hnewer :
      (form.map fun raw => (Scalar.str (nameText raw), Value.map (newerProperty raw))).mapM
        (fun p => do return (p.1, ← Schema.compose p.2)) = Except.ok properties := by
    rw [Outcome.mapM_eq_ok, List.forall₂_map_left_iff]
    refine hproperties.imp fun raw p hp => ?_
    dsimp only
    rw [hp.newer, ← hp.name]
    rfl
  let required := (form.filter isRequired).map nameOf
  have hform : formType ∈ ([formType, jsonType] : List Text) := List.mem_cons_self
  refine ⟨[(.str "content", .record [(formType, .record [
    ("schema", .map (formSchema properties required))])])], ?_, List.cons_ne_nil _ _, ?_⟩
  · rw [bodyOfForm, hmade]
    rfl
  · rw [bodiesFrom_eq hform rfl, bodiesFrom_eq hform rfl, compose_formSchema holder,
      compose_formSchema hnewer]
    rfl

theorem get_content_newerBody (raw : Fields) : Fields.get "content" (newerBody raw) =
    .map [(.str jsonType, .record [("schema", Fields.get "schema" raw)])] := by
  have hnone : (raw.filter fun e => e.1 == .str "description" || e.1 == .str "required").lookup
      (.str "content") = none := by
    rw [List.lookup_eq_none_iff]
    intro e he
    obtain ⟨-, hkept⟩ := List.mem_filter.1 he
    rw [Bool.or_eq_true, Scalar.beq_str_iff, Scalar.beq_str_iff] at hkept
    rcases hkept with hkey | hkey <;> rw [hkey] <;> rfl
  rw [newerBody, Fields.get, Fields.get?, List.lookup_append, hnone]
  rfl

theorem descriptionOf_newerBody (raw : Fields) :
    descriptionOf (newerBody raw) = descriptionOf raw := by
  have hkept := Entries.lookup_filter (k := Scalar.str "description")
    (p := fun k => k == Scalar.str "description" || k == Scalar.str "required") (fun k hk => by
      rw [Scalar.str_beq_iff.1 hk]
      rfl) raw
  have hget : Fields.get "description" (newerBody raw) = Fields.get "description" raw := by
    show ((newerBody raw).lookup (.str "description")).getD .null =
      (raw.lookup (.str "description")).getD .null
    rw [newerBody, List.lookup_append, hkept]
    cases raw.lookup (Scalar.str "description") <;> rfl
  rw [descriptionOf, hget, descriptionOf]

/-- A `body` parameter makes the same bodies in both styles. -/
theorem bodiesFrom_newerBody {raw es : Fields} (h : Fields.get "schema" raw = .map es)
    (method : Text) :
    bodiesFrom method (newerBody raw) = bodiesFrom method (bodyOfParameter raw) := by
  have hjson : jsonType ∈ ([formType, jsonType] : List Text) := by simp
  have hcontent : Fields.get "content" (newerBody raw) =
      .map [(.str jsonType, .record [("schema", .map es)])] := by
    rw [get_content_newerBody, h]
  have hcontent' : Fields.get "content" (bodyOfParameter raw) =
      .map [(.str jsonType, .record [("schema", .map es)])] := by
    have horElse : (Value.map es).orElse (.map []) = .map es := by
      cases es <;> rfl
    rw [bodyOfParameter, h, horElse]
    rfl
  rw [bodiesFrom_eq hjson hcontent, bodiesFrom_eq hjson hcontent', descriptionOf_newerBody]
  rfl

/-! ### Bodies of either style -/

/-- The body that declarations for a body and for its form make. -/
def bodyOfDeclared (bodies form : List Fields) : Except Fault (Option Fields) :=
  match bodies, form with
  | raw :: _, _ => .ok (some (bodyOfParameter raw))
  | [], [] => .ok none
  | [], form => some <$> bodyOfForm form

/-- An entry without a body of its own has the one that is declared. -/
theorem bodyOf_eq (hbody : Fields.get? "requestBody" ctx.entry = none) {raws : List Fields}
    (hdeclared : declarations ctx = .ok (keyed raws))
    (hkeys : ∀ raw ∈ raws, ∃ key, declarationKey? raw = some key) :
    bodyOf ctx = bodyOfDeclared (raws.filter (isIn "body")) (raws.filter (isIn "formData")) := by
  rw [bodyOf, Fields.get, hbody]
  show declaredBody ctx = _
  unfold declaredBody
  rw [hdeclared, ← declaredIn_keyed hkeys, ← declaredIn_keyed hkeys]
  dsimp only [bind, Except.bind]
  cases declaredIn "body" (keyed raws) with
  | cons raw rest => rfl
  | nil => cases declaredIn "formData" (keyed raws) <;> rfl

theorem bodyOf_newerContext {body entry : Fields}
    (h : newerEntry raws ctx.entry = Fields.put "requestBody" (.map body) entry) :
    bodyOf (newerContext raws ctx) = .ok (some body) := by
  have hget : Fields.get "requestBody" (newerContext raws ctx).entry = .map body := by
    show Fields.get "requestBody" (newerEntry raws ctx.entry) = _
    rw [h, Fields.get, Fields.get?_put, if_pos rfl]
    rfl
  rw [bodyOf, hget]

/-- Neither style has a body where none is declared. -/
theorem bodyOf_newerContext_eq_none (hshared : ctx.shared = [])
    (hbody : Fields.get? "requestBody" ctx.entry = none) (h : IsOlderStyle raws)
    (hbodies : raws.filter (isIn "body") = []) (hform : raws.filter (isIn "formData") = []) :
    bodyOf (newerContext raws ctx) = .ok none := by
  have hget : Fields.get? "requestBody" (newerContext raws ctx).entry = none := by
    show Fields.get? "requestBody" (newerEntry raws ctx.entry) = none
    rw [newerEntry, hbodies, hform]
    dsimp only
    rw [Fields.get?_put, if_neg (by decide), hbody]
  have hnewer {place : Text} (hplace : raws.filter (isIn place) = []) :
      (newerDeclarations raws).filter (isIn place) = [] := by
    rw [List.filter_eq_nil_iff] at hplace ⊢
    intro raw hraw
    obtain ⟨older, holder, rfl⟩ := List.mem_map.1 hraw
    rw [isIn_newerDeclaration]
    exact hplace older (List.mem_of_mem_filter holder)
  rw [bodyOf_eq hget (declarations_newerContext hshared h) fun raw hraw =>
    h.exists_declarationKey hraw, hnewer hbodies, hnewer hform, bodyOfDeclared]

theorem stageBodies_newerContext (hshared : ctx.shared = [])
    (hparameters : parametersOf ctx.entry = .ok (raws.map Value.map))
    (hbody : Fields.get? "requestBody" ctx.entry = none) (h : IsOlderStyle raws) :
    stageBodies (newerContext raws ctx) = stageBodies ctx := by
  have holder := bodyOf_eq hbody
    (declarations_eq hshared hparameters h.named h.keys h.apart) h.keys
  -- In both styles a `body` parameter counts before form parameters do.
  cases hbodies : raws.filter (isIn "body") with
  | cons raw rest =>
    have hraw : raw ∈ raws.filter (isIn "body") := hbodies ▸ List.mem_cons_self
    obtain ⟨hmem, hin⟩ := List.mem_filter.1 hraw
    obtain ⟨es, hes⟩ := h.bodies raw hmem hin
    have hnewer : bodyOf (newerContext raws ctx) = .ok (some (newerBody raw)) :=
      bodyOf_newerContext (by rw [newerEntry, hbodies])
    have hne : newerBody raw ≠ [] := List.append_ne_nil_of_right_ne_nil _ (List.cons_ne_nil _ _)
    rw [hbodies, bodyOfDeclared] at holder
    rw [stageBodies_eq hnewer hne, stageBodies_eq holder (List.cons_ne_nil _ _)]
    exact bodiesFrom_newerBody hes ctx.method
  | nil =>
    cases hform : raws.filter (isIn "formData") with
    | cons raw rest =>
      have hmem {raw' : Fields} (hraw' : raw' ∈ raw :: rest) :
          raw' ∈ raws ∧ isIn "formData" raw' = true := List.mem_filter.1 (hform ▸ hraw')
      obtain ⟨body, hmade, hne, heq⟩ := exists_bodyOfForm
        (fun raw' hraw' => h.named raw' (hmem hraw').1)
        (fun raw' hraw' => h.inline raw' (hmem hraw').1 "formData" (by simp) (hmem hraw').2)
        (fun raw' hraw' => h.combined raw' (hmem hraw').1 (hmem hraw').2) ctx.method
      have hnewer : bodyOf (newerContext raws ctx) = .ok (some (newerForm (raw :: rest))) :=
        bodyOf_newerContext (by rw [newerEntry, hbodies, hform])
      rw [hbodies, hform, bodyOfDeclared, hmade] at holder
      · rw [stageBodies_eq hnewer (List.cons_ne_nil _ _), stageBodies_eq holder hne]
        exact heq.symm
      · exact List.cons_ne_nil raw rest
    | nil =>
      have hnewer := bodyOf_newerContext_eq_none hshared hbody h hbodies hform
      rw [hbodies, hform, bodyOfDeclared] at holder
      rw [stageBodies, hnewer, stageBodies, holder]
      rfl

/-- **Both styles are staged alike.** An entry of the older style, on a path without declarations of
its own, makes the same parameters, warnings and bodies as the entry it is rewritten to, for every
endpoint and method, and fails as that one does. -/
theorem stages_newerEntry (hshared : ctx.shared = [])
    (hparameters : parametersOf ctx.entry = .ok (raws.map Value.map))
    (hbody : Fields.get? "requestBody" ctx.entry = none) (h : IsOlderStyle raws) :
    stageParameters (newerContext raws ctx) = stageParameters ctx ∧
      stageBodies (newerContext raws ctx) = stageBodies ctx :=
  ⟨stageParameters_newerContext hshared hparameters h,
    stageBodies_newerContext hshared hparameters hbody h⟩

/-- Declarations of an upload in the older style: for its path, for a query, and a form with two
parts, one of them with alternatives in its items. -/
def uploadDeclarations : List Fields :=
  [[(.str "name", .str "album"), (.str "in", .str "path"), (.str "type", .str "integer")],
    [(.str "name", .str "tags"), (.str "in", .str "query"), (.str "enum", .list [.str "new"])],
    [(.str "name", .str "tags"), (.str "in", .str "formData"), (.str "required", .bool true),
      (.str "description", .str "All its\n tags"), (.str "type", .str "array"),
      (.str "items", .record [("oneOf", .list [.record [("type", .str "string")]])])],
    [(.str "name", .str "note"), (.str "in", .str "formData"), (.str "pattern", .str "^.+$")]]

/-- The operation that uploads a picture to an album. -/
def uploadContext : Context where
  endpoint := .str "/albums/\x7balbum\x7d/pictures"
  method := "post"
  resource := "picture"
  entry := [(.str "parameters", .list (uploadDeclarations.map Value.map))]
  shared := []

theorem stages_newerEntry_uploadContext : uploadContext.shared = [] ∧
    parametersOf uploadContext.entry = .ok (uploadDeclarations.map Value.map) ∧
    Fields.get? "requestBody" uploadContext.entry = none ∧ IsOlderStyle uploadDeclarations ∧
    stageParameters (newerContext uploadDeclarations uploadContext) =
      stageParameters uploadContext ∧
    stageBodies (newerContext uploadDeclarations uploadContext) = stageBodies uploadContext := by
  have hparameters : parametersOf uploadContext.entry = .ok (uploadDeclarations.map Value.map) := by
    rfl
  have hkeys : ∀ raw ∈ uploadDeclarations, (declarationKey? raw).isSome = true := by decide
  have hbodies : ∀ raw ∈ uploadDeclarations, isIn "body" raw = false := by decide
  have hstyle : IsOlderStyle uploadDeclarations := {
    named := by simp [uploadDeclarations, nameOf, Fields.get, Fields.get?]
    keys := fun raw hraw => Option.isSome_iff_exists.1 (hkeys raw hraw)
    apart := by decide +kernel
    bodies := fun raw hraw hin => absurd hin (by rw [hbodies raw hraw]; exact Bool.false_ne_true)
    inline := by decide +kernel
    combined := by decide +kernel }
  exact ⟨rfl, hparameters, rfl, hstyle, stages_newerEntry rfl hparameters rfl hstyle⟩

end NodeForge.OpenApi
