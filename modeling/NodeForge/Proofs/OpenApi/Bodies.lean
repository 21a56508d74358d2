import NodeForge.Proofs.OpenApi.DeclaredBodies
import NodeForge.Proofs.OpenApi.Rows
import NodeForge.Proofs.Schema.Shares

/-!
# The bodies of a staged operation

The body of a request is staged in two parts at most: a standard one with the mandatory properties
and behind it an extra one with the optional ones. `Splits` says that under each content type the
two parts share out the properties of the form of its schema, and `bodies_of_stage` that staging
makes such parts of the body that the operation has, none of them without content and no content
without properties.
-/

namespace NodeForge.OpenApi

/-! ### What the bodies are made of -/

/-- The content types that a body can have, in their order. -/
def handledTypes : List Text :=
  ["application/x-www-form-urlencoded", "application/json", "text/plain"]

/-- The properties that stand under a content type. -/
def propertiesAt (contentType : Text) (content : List (Text × Fields)) : Fields :=
  ((content.lookup contentType).bind fun media => (Fields.get "schema" media).fields?).elim []
    Schema.propertiesIn

/-- The content of a body, where there is one. -/
def contentIn (b : Option RequestBody) : List (Text × Fields) := b.elim [] RequestBody.content

/-- Whether a body is filled: it has content, by handled content types, each once and in their
order, and under each of them an object with properties. -/
structure IsFilled (b : RequestBody) : Prop where
  content : b.content ≠ []
  types : (b.content.map Prod.fst).Sublist handledTypes
  objects : ∀ c ∈ b.content, ∃ properties, properties ≠ [] ∧
    c.2 = [(.str "schema", .map (objectSchema properties))]

/-- Whether a body is a standard one. -/
structure IsStandard (b : RequestBody) : Prop where
  name : b.name.text = "Standard"
  required : b.required = true
  filled : IsFilled b

/-- Whether a body holds the extra fields of a request. -/
structure IsExtra (requestMethod : Text) (b : RequestBody) : Prop where
  name : b.name.text = if requestMethod = "PUT" ∨ requestMethod = "PATCH" then "Update Fields"
    else "Additional Fields"
  required : b.required = false
  filled : IsFilled b

/-- Whether a standard and an extra body split the body of a request: under each content type they
share out the properties of the form of its schema, and under no other one they have any. The
description of the body goes to the standard one. -/
structure Splits (method : Text) (body : Fields) (standard extra : Option RequestBody) : Prop where
  shares : ∀ contentType ∈ handledTypes, ∀ media, mediaOf? contentType body = some media →
    ∃ schema form, IsSchemaAt body media contentType schema ∧
      Schema.toForm method schema = .ok form ∧
      Schema.Shares form (propertiesAt contentType (contentIn standard))
        (propertiesAt contentType (contentIn extra))
  others : ∀ contentType, contentType ∉ handledTypes ∨ mediaOf? contentType body = none →
    propertiesAt contentType (contentIn standard) = [] ∧
      propertiesAt contentType (contentIn extra) = []
  described : (∀ b ∈ standard, b.description = descriptionOf body) ∧
    ∀ b ∈ extra, b.description = none

/-! ### One content type -/

/-- Whether a part is that of a content type. -/
structure IsPartOf (method : Text) (body : Fields) (contentType : Text) (p : Option MediaPart) :
    Prop where
  absent : mediaOf? contentType body = none → p = none
  present : ∀ media, mediaOf? contentType body = some media → ∃ schema form part, p = some part ∧
    part.contentType = contentType ∧ IsSchemaAt body media contentType schema ∧
    Schema.toForm method schema = .ok form ∧ Schema.Shares form part.mandatory part.optional

theorem isPartOf_of_mediaPart {method contentType : Text} {body : Fields} {p : Option MediaPart}
    (h : mediaPart method ((Fields.get "content" body).orElse (.map [])) body contentType = .ok p) :
    IsPartOf method body contentType p := by
  obtain ⟨entry, hentry, h⟩ := Outcome.bind_eq_ok.1 h
  rw [Outcome.lift_eq_ok, Value.field, Outcome.map_eq_ok] at hentry
  obtain ⟨content, hcontent, rfl⟩ := hentry
  have hmedia : mediaOf? contentType body = (Fields.get contentType content).fields? := by
    rw [mediaOf?, Outcome.orFault_eq_ok.1 hcontent]
    rfl
  split at h
  · next media hget =>
    rw [hget] at hmedia
    obtain ⟨form, hform, h⟩ := Outcome.bind_eq_ok.1 h
    obtain ⟨⟨mandatory, optional⟩, hsplit, h⟩ := Outcome.bind_eq_ok.1 h
    rw [Outcome.lift_eq_ok] at hsplit
    rw [Outcome.pure_eq_ok] at h
    obtain ⟨schema, hschema, htoForm⟩ := isSchemaAt_of_mediaForm hform
    obtain ⟨fields, -, hfields⟩ := Schema.toForm_eq_ok.1 htoForm
    refine ⟨fun hnone => ?_, fun media' hmedia' => ?_⟩
    · rw [hmedia] at hnone
      cases hnone
    · rw [hmedia] at hmedia'
      cases hmedia'
      exact ⟨schema, form, ⟨contentType, mandatory, optional⟩, h.symm, rfl, hschema, htoForm,
        Schema.shares_of_splitRequired hfields hsplit⟩
  · next hnot =>
    rw [Outcome.pure_eq_ok] at h
    refine ⟨fun _ => h.symm, fun media hsome => ?_⟩
    rw [hmedia, Value.fields?_eq_some] at hsome
    exact absurd hsome (hnot media)

variable {method : Text} {body : Fields}

/-- Where there is a part, its content type has an entry, and the part is that of the entry. -/
theorem IsPartOf.contentType_eq {contentType : Text} {part : MediaPart}
    (h : IsPartOf method body contentType (some part)) :
    part.contentType = contentType ∧ mediaOf? contentType body ≠ none := by
  cases hmedia : mediaOf? contentType body with
  | none => cases h.absent hmedia
  | some media =>
    obtain ⟨_, form, part', hpart, htype, -⟩ := h.present media hmedia
    cases hpart
    exact ⟨htype, Option.some_ne_none media⟩

/-! ### The content of a body -/

/-- The parts stand in the order of their content types. -/
theorem contentTypes_sublist {types : List Text} {found : List (Option MediaPart)}
    (h : List.Forall₂ (IsPartOf method body) types found) :
    ((found.filterMap id).map MediaPart.contentType).Sublist types := by
  induction h with
  | nil => exact List.Sublist.slnil
  | @cons contentType p types found hp _ ih =>
    cases p with
    | none => exact ih.cons contentType
    | some part =>
      have hcons : (some part :: found).filterMap id = part :: found.filterMap id := rfl
      rw [hcons, List.map_cons, hp.contentType_eq.1]
      exact ih.cons_cons contentType

variable {f : MediaPart → Fields} {parts : List MediaPart}

theorem mem_contentOf {c : Text × Fields} : c ∈ contentOf f parts ↔
    ∃ p ∈ parts, f p ≠ [] ∧ c = (p.contentType, [(.str "schema", .map (objectSchema (f p)))]) := by
  simp only [contentOf, List.mem_map, List.mem_filter, Bool.not_eq_true', List.isEmpty_eq_false_iff,
    and_assoc, eq_comm (a := c)]

theorem map_fst_contentOf_sublist :
    ((contentOf f parts).map Prod.fst).Sublist (parts.map MediaPart.contentType) := by
  rw [contentOf, List.map_map]
  exact List.filter_sublist.map MediaPart.contentType

/-- Under the content type of a part stand its properties. -/
theorem propertiesAt_contentOf (h : (parts.map MediaPart.contentType).Nodup) {p : MediaPart}
    (hp : p ∈ parts) : propertiesAt p.contentType (contentOf f parts) = f p := by
  have hkeys : (Entries.keys (contentOf f parts)).Nodup := h.sublist map_fst_contentOf_sublist
  by_cases hempty : f p = []
  · have hnone : (contentOf f parts).lookup p.contentType = none := by
      rw [List.lookup_eq_none_iff]
      intro c hc
      obtain ⟨q, hq, hne, rfl⟩ := mem_contentOf.1 hc
      -- no other part has this content type
      have hneq : p.contentType ≠ q.contentType := by
        intro hsame
        rw [← List.inj_on_of_nodup_map h hp hq hsame] at hne
        exact hne hempty
      simpa using hneq
    rw [propertiesAt, hnone, hempty]
    rfl
  · have hmem : (p.contentType, [(Scalar.str "schema", Value.map (objectSchema (f p)))]) ∈
        contentOf f parts :=
      mem_contentOf.2 ⟨p, hp, hempty, rfl⟩
    rw [propertiesAt, Entries.lookup_eq_some_of_mem hkeys hmem]
    rfl

/-- Under a content type without a part stands nothing. -/
theorem propertiesAt_contentOf_eq_nil {contentType : Text}
    (h : ∀ p ∈ parts, p.contentType ≠ contentType) :
    propertiesAt contentType (contentOf f parts) = [] := by
  have hnone : (contentOf f parts).lookup contentType = none := by
    rw [List.lookup_eq_none_iff]
    intro c hc
    obtain ⟨p, hp, -, rfl⟩ := mem_contentOf.1 hc
    simpa using (h p hp).symm
  rw [propertiesAt, hnone]
  rfl

/-! ### Both bodies -/

/-- A body, if it has content. -/
def ifFilled (b : RequestBody) : Option RequestBody := if b.content.isEmpty then none else some b

theorem contentIn_ifFilled (b : RequestBody) : contentIn (ifFilled b) = b.content := by
  unfold ifFilled
  split
  · next h => exact (List.isEmpty_iff.1 h).symm
  · rfl

theorem bodiesOf_eq (method : Text) (description : Option Text) (parts : List MediaPart) :
    bodiesOf method description parts =
      (ifFilled ⟨.standard, true, description, contentOf MediaPart.mandatory parts⟩).toList ++
        (ifFilled ⟨extraGroup method, false, none, contentOf MediaPart.optional parts⟩).toList := by
  unfold bodiesOf ifFilled
  dsimp only
  cases (contentOf MediaPart.mandatory parts).isEmpty <;>
    cases (contentOf MediaPart.optional parts).isEmpty <;> rfl

theorem isFilled_of_ifFilled {b b' : RequestBody}
    (htypes : (parts.map MediaPart.contentType).Sublist bodyTypes)
    (hcontent : b.content = contentOf f parts) (h : ifFilled b = some b') :
    b' = b ∧ IsFilled b := by
  unfold ifFilled at h
  split at h
  · cases h
  · next hne =>
    cases h
    refine ⟨rfl, fun hnil => hne (List.isEmpty_iff.2 hnil), ?_, fun c hc => ?_⟩
    · rw [hcontent]
      exact map_fst_contentOf_sublist.trans htypes
    · rw [hcontent] at hc
      obtain ⟨p, -, hproperties, rfl⟩ := mem_contentOf.1 hc
      exact ⟨f p, hproperties, rfl⟩

theorem text_extraGroup (method : Text) : (extraGroup method).text =
    if Text.upper method = "PUT" ∨ Text.upper method = "PATCH" then "Update Fields"
    else "Additional Fields" := by
  have hiff : (["PUT", "PATCH"] : List Text).contains (Text.upper method) = true ↔
      Text.upper method = "PUT" ∨ Text.upper method = "PATCH" := by
    simp
  unfold extraGroup
  by_cases h : Text.upper method = "PUT" ∨ Text.upper method = "PATCH"
  · rw [if_pos (hiff.2 h), if_pos h]
    rfl
  · rw [if_neg (fun hc => h (hiff.1 hc)), if_neg h]
    rfl

theorem eq_of_mem_ifFilled {b b' : RequestBody} (h : b' ∈ ifFilled b) : b' = b := by
  unfold ifFilled at h
  split at h
  · cases h
  · exact (Option.mem_some.1 h).symm

/-- The parts of a body split it. -/
theorem splits_of_parts {found : List (Option MediaPart)} {standard extra : RequestBody}
    (h : List.Forall₂ (IsPartOf method body) handledTypes found)
    (hstandard : standard.content = contentOf MediaPart.mandatory (found.filterMap id))
    (hextra : extra.content = contentOf MediaPart.optional (found.filterMap id))
    (hdescription : standard.description = descriptionOf body ∧ extra.description = none) :
    Splits method body (ifFilled standard) (ifFilled extra) := by
  have htypes := contentTypes_sublist h
  have hnodup : ((found.filterMap id).map MediaPart.contentType).Nodup :=
    List.Nodup.sublist htypes (by decide)
  refine ⟨fun contentType htype media hmedia => ?_, fun contentType hmedia => ?_,
    fun b hb => ?_, fun b hb => ?_⟩
  · obtain ⟨p, hp, hpart⟩ := Outcome.exists_right_of_mem h htype
    obtain ⟨schema, form, part, rfl, rfl, hschema, hform, hshares⟩ := hpart.present media hmedia
    have hmem : part ∈ found.filterMap id := List.mem_filterMap.2 ⟨some part, hp, rfl⟩
    refine ⟨schema, form, hschema, hform, ?_⟩
    rw [contentIn_ifFilled, contentIn_ifFilled, hstandard, hextra,
      propertiesAt_contentOf hnodup hmem, propertiesAt_contentOf hnodup hmem]
    exact hshares
  · have hnone : ∀ part ∈ found.filterMap id, part.contentType ≠ contentType := by
      rintro part hpart rfl
      rcases hmedia with hnot | hmedia
      · exact hnot (htypes.subset (List.mem_map_of_mem hpart))
      · obtain ⟨p, hp, hsome⟩ := List.mem_filterMap.1 hpart
        change p = some part at hsome
        obtain ⟨contentType, -, hpartOf⟩ := Outcome.exists_left_of_mem h hp
        rw [hsome] at hpartOf
        obtain ⟨htype, hthere⟩ := hpartOf.contentType_eq
        rw [← htype] at hthere
        exact hthere hmedia
    rw [contentIn_ifFilled, contentIn_ifFilled, hstandard, hextra]
    exact ⟨propertiesAt_contentOf_eq_nil hnone, propertiesAt_contentOf_eq_nil hnone⟩
  · rw [eq_of_mem_ifFilled hb]
    exact hdescription.1
  · rw [eq_of_mem_ifFilled hb]
    exact hdescription.2

theorem splits_nil (method : Text) : Splits method [] none none := by
  refine ⟨fun contentType _ media hmedia => ?_, fun contentType _ => ⟨rfl, rfl⟩, nofun, nofun⟩
  cases hmedia

/-- **Two bodies.** The bodies that are staged split the body of the operation, if it has one, into
a standard and an extra one. -/
theorem splits_of_stageBodies {m : Mention} {resource : Text} {bodies : List RequestBody}
    (h : stageBodies (m.context resource) = .ok bodies) :
    ∃ body standard extra, m.HasBody body ∧ bodies = standard.toList ++ extra.toList ∧
      (∀ b ∈ standard, IsStandard b) ∧ (∀ b ∈ extra, IsExtra (Text.upper m.method) b) ∧
      Splits m.method (body.getD []) standard extra := by
  obtain ⟨body, hbody, h⟩ := Outcome.bind_eq_ok.1 h
  rw [Outcome.lift_eq_ok] at hbody
  have hhas := hasBody_of_bodyOf hbody
  refine ⟨body, ?_⟩
  split at h
  -- without a body nothing is staged
  · exact ⟨none, none, hhas, (Except.ok.inj h).symm, nofun, nofun, splits_nil m.method⟩
  · exact ⟨none, none, hhas, (Except.ok.inj h).symm, nofun, nofun, splits_nil m.method⟩
  · next fields _ =>
    obtain ⟨found, hfound, h⟩ := Outcome.bind_eq_ok.1 h
    rw [Outcome.pure_eq_ok, bodiesOf_eq] at h
    have hparts : List.Forall₂ (IsPartOf m.method fields) handledTypes found :=
      (Outcome.mapM_eq_ok.1 hfound).imp fun _ _ hp => isPartOf_of_mediaPart hp
    have htypes := contentTypes_sublist hparts
    refine ⟨_, _, hhas, h.symm, fun b hb => ?_, fun b hb => ?_,
      splits_of_parts hparts rfl rfl ⟨rfl, rfl⟩⟩
    · obtain ⟨rfl, hfilled⟩ := isFilled_of_ifFilled htypes rfl hb
      exact ⟨rfl, rfl, hfilled⟩
    · obtain ⟨rfl, hfilled⟩ := isFilled_of_ifFilled htypes rfl hb
      exact ⟨text_extraGroup m.method, rfl, hfilled⟩

variable {given : Option Text} {nodeColor : Text} {document : Value} {staged : Staged}

/-- **The bodies of an operation.** Every operation of a staged document has at most a standard body
and behind it an extra one, and under each content type of the body that its mention has, its own or
a declared one, these two share out the properties of the form of the schema there. -/
theorem bodies_of_stage (h : stage given nodeColor document = .ok staged) :
    ∀ e ∈ staged.model.resources, ∀ o ∈ e.2,
      ∃ m ∈ mentions document, e.1 ∈ m.resources ∧ m.Makes e.1 o.operationId o ∧
        ∃ body standard extra, m.HasBody body ∧
          o.requestBody = standard.toList ++ extra.toList ∧
          (∀ b ∈ standard, IsStandard b) ∧ (∀ b ∈ extra, IsExtra o.requestMethod b) ∧
          Splits m.method (body.getD []) standard extra := by
  intro e he o ho
  obtain ⟨m, hm, hresource, hmakes⟩ := exists_mention_of_mem h he ho
  refine ⟨m, hm, hresource, hmakes, ?_⟩
  rw [hmakes.requestMethod]
  exact splits_of_stageBodies hmakes.requestBody

/-- A shop that takes an order as JSON with a mandatory property beside a hidden one, or as plain
text, which may be left out. -/
def orderShop : Value :=
  .record [("paths", .record [("/orders/\x7bid\x7d", .record [
    ("put", .record [("requestBody", .record [
      ("description", .str "Order of the customer"),
      ("content", .record [
        ("application/json", .record [("schema", .record [
          ("properties", .record [
            ("order id", .record [("readOnly", .bool true)]),
            ("item name", .record [("type", .str "string")])]),
          ("required", .list [.str "item name"])])]),
        ("text/plain", .record [("schema", .record [("type", .str "string")])])])])])])])]

/-- The names of a body and of its fields, by content type. -/
def namesIn (b : RequestBody) : Text × List (Text × List Text) :=
  (b.name.text,
    b.content.map fun c => (c.1, (propertiesAt c.1 b.content).map fun e => e.1.text))

/-- The names of the bodies in the shop. -/
def orderShopNames : List (Text × List (Text × List Text)) :=
  [("Standard", [("application/json", ["itemName"])]),
    ("Update Fields", [("text/plain", ["order"])])]

theorem bodies_orderShop : ∃ staged, stage none defaultNodeColor orderShop = .ok staged ∧
    (staged.model.resources.flatMap fun e => e.2.flatMap fun o => o.requestBody.map namesIn) =
      orderShopNames ∧
    ∀ e ∈ staged.model.resources, ∀ o ∈ e.2,
      ∃ m ∈ mentions orderShop, ∃ body standard extra, m.HasBody body ∧
        o.requestBody = standard.toList ++ extra.toList ∧
        (∀ b ∈ standard, IsStandard b) ∧ (∀ b ∈ extra, IsExtra o.requestMethod b) ∧
        Splits m.method (body.getD []) standard extra := by
  obtain ⟨staged, h⟩ := isStageable_iff.1
    (by decide +kernel : isStageable none defaultNodeColor orderShop = true)
  have hnames : (stage none defaultNodeColor orderShop).toOption.map (fun s =>
      s.model.resources.flatMap fun e => e.2.flatMap fun o => o.requestBody.map namesIn) =
      some orderShopNames := by
    decide +kernel
  rw [h] at hnames
  refine ⟨staged, h, Option.some.inj hnames, fun e he o ho => ?_⟩
  obtain ⟨m, hm, -, -, hbodies⟩ := bodies_of_stage h e he o ho
  exact ⟨m, hm, hbodies⟩

end NodeForge.OpenApi
