import NodeForge.Proofs.Outline.Buckets
import NodeForge.Proofs.Source.Collections
import NodeForge.Proofs.Source.Statements

/-!
# The ways of fields into requests

The fields that a custom schema lists for the query string are to be sent in the query string, and
those for the body in the body. `carrierOf` says where a field of a bucket is really sent: in the
carrier of its channel, except that the collection of a bucket with body fields is sent in the body
as a whole, with its query fields inside. `routes_of_stage` says that the code of every operation of
a staged schema sends exactly the listed fields, each of them there.
-/

namespace NodeForge.Outline

open Source

/-- The carrier that the fields of a channel are meant for. -/
def Channel.carrier : Channel → Carrier
  | .query => .query
  | .body => .body

/-- Whether the fields of a bucket are entered one by one. All others are in the collection of their
bucket. -/
def isSingle : Bucket → Channel → Bool
  | .mandatory, _ | .filters, .query => true
  | _, _ => false

/-- Whether a listed field is entered in the field of the node that has a name. -/
def IsEnteredIn (bucket : Bucket) (channel : Channel) (e : Scalar × Value) (name : Text) : Prop :=
  if isSingle bucket channel then Wire.checkText (.scalar e.1) = .good name
  else Naming.camel bucket.group.text = name

/-- The carrier that the fields of a bucket are sent in. -/
def carrierOf (enter : Value → Value) (operation : Fields) (bucket : Bucket) (channel : Channel) :
    Carrier :=
  if !isSingle bucket channel && !(listedIn enter bucket .body operation).isEmpty then .body
  else channel.carrier

/-- Whether the collection of a bucket holds a listed field. -/
def IsHeld (o : Operation) (bucket : Bucket) (e : Scalar × Value) : Prop :=
  ∃ groups key, groupsOf o = .ok groups ∧ HoldsKey groups bucket.group key ∧
    (key = e.1 ∨ ∃ name, Wire.checkText (.scalar e.1) = .good name ∧ key = .str name)

/-- Whether an operation is listed under a resource of a schema. -/
def IsListed (enter : Value → Value) (document : Value) (resource : Text) (fields : Fields) :
    Prop :=
  ∃ main listed e members v, (enter document).field "mainParams" = .ok main ∧
    enter main = .map listed ∧ e ∈ listed ∧ Wire.checkKey e.1 = .good resource ∧
    (enter (e.2.orElse (.list []))).members = .ok members ∧ v ∈ members ∧ enter v = .map fields

variable {enter : Value → Value} {fields : Fields} {o : Operation}

/-! ### Bodies -/

theorem Bucket.group_eq_standard_iff {bucket : Bucket} :
    bucket.group = .standard ↔ bucket = .mandatory := by
  cases bucket <;> simp [Bucket.group]

theorem Bucket.group_injective : Function.Injective Bucket.group := by
  intro a b h
  cases a <;> cases b <;> first | rfl | cases h

theorem Bucket.group_surjective : Function.Surjective Bucket.group := by
  intro group
  cases group
  · exact ⟨.mandatory, rfl⟩
  · exact ⟨.additional, rfl⟩
  · exact ⟨.updates, rfl⟩
  · exact ⟨.filters, rfl⟩

theorem Bucket.mem_all (bucket : Bucket) : bucket ∈ Bucket.all := by
  cases bucket <;> decide

theorem exists_bucket_of_mem (h : IsStagedFrom enter fields o) {b : RequestBody}
    (hb : b ∈ o.requestBody) :
    ∃ bucket, listedIn enter bucket .body fields ≠ [] ∧
      IsBody enter bucket (listedIn enter bucket .body fields) b := by
  obtain ⟨bucket, hbucket, hbody⟩ := Outcome.exists_left_of_mem h.bodies hb
  refine ⟨bucket, ?_, hbody⟩
  simpa using (List.mem_filter.1 hbucket).2

theorem exists_body_of_ne_nil (h : IsStagedFrom enter fields o) {bucket : Bucket}
    (hlisted : listedIn enter bucket .body fields ≠ []) :
    ∃ b ∈ o.requestBody, IsBody enter bucket (listedIn enter bucket .body fields) b := by
  refine Outcome.exists_right_of_mem h.bodies (List.mem_filter.2 ⟨bucket.mem_all, ?_⟩)
  simpa using hlisted

theorem mem_bodyGroups_iff (h : IsStagedFrom enter fields o) {bucket : Bucket} :
    bucket.group ∈ bodyGroups o ↔
      bucket ≠ .mandatory ∧ listedIn enter bucket .body fields ≠ [] := by
  rw [bodyGroups, List.mem_map, Operation.extraBodies]
  simp only [List.mem_filter, bne_iff_ne]
  constructor
  · rintro ⟨b, ⟨hb, hextra⟩, hname⟩
    obtain ⟨bucket', hlisted, hbody⟩ := exists_bucket_of_mem h hb
    rw [hbody.name] at hextra hname
    rw [Bucket.group_injective hname] at hextra hlisted
    exact ⟨fun heq => hextra (Bucket.group_eq_standard_iff.2 heq), hlisted⟩
  · rintro ⟨hextra, hlisted⟩
    obtain ⟨b, hb, hbody⟩ := exists_body_of_ne_nil h hlisted
    refine ⟨b, ⟨hb, ?_⟩, hbody.name⟩
    rw [hbody.name]
    exact fun heq => hextra (Bucket.group_eq_standard_iff.1 heq)

/-- The properties of a body are the body fields of its bucket. -/
theorem bodyProperties_of_isBody {bucket : Bucket} {listed : Fields} {b : RequestBody}
    (h : IsBody enter bucket listed b) :
    ∃ properties, bodyProperties b = .ok properties ∧
      ∀ key, Entries.has key properties = true ↔ ∃ e ∈ listed, (key == e.1) = true := by
  obtain ⟨properties, ⟨⟨staged, hperm, hstaged⟩, -⟩, hcontent⟩ := h.content
  refine ⟨Entries.ofList properties, ?_, fun key => ?_⟩
  · rw [bodyProperties, hcontent]
    rfl
  · rw [Entries.has_ofList, Entries.has_iff_exists]
    constructor
    · rintro ⟨e', he', hkey⟩
      obtain ⟨e, he, heq, -⟩ := Outcome.exists_left_of_mem hstaged (hperm.mem_iff.1 he')
      exact ⟨e, he, by rwa [← heq]⟩
    · rintro ⟨e, he, hkey⟩
      obtain ⟨e', he', heq, -⟩ := Outcome.exists_right_of_mem hstaged he
      exact ⟨e', hperm.mem_iff.2 he', by rwa [heq]⟩

variable {helper : Text} {statements : List Statement} {name : Text}

/-- The properties of the standard bodies are the mandatory body fields. -/
theorem exists_standardField_iff (h : IsStagedFrom enter fields o)
    (hs : requestStatements helper o = .ok statements) :
    (∃ schema, IsStandardField o (.str name) schema) ↔
      ∃ e ∈ listedIn enter .mandatory .body fields, Wire.checkText (.scalar e.1) = .good name := by
  constructor
  · rintro ⟨schema, b, hb, properties, hproperties, hmem⟩
    rw [Operation.standardBodies, List.mem_filter, beq_iff_eq] at hb
    obtain ⟨bucket, -, hbody⟩ := exists_bucket_of_mem h hb.1
    obtain rfl := Bucket.group_eq_standard_iff.1 (hbody.name.symm.trans hb.2)
    obtain ⟨properties', hproperties', hhas⟩ := bodyProperties_of_isBody hbody
    rw [Except.ok.inj (hproperties'.symm.trans hproperties)] at hhas
    obtain ⟨e, he, hkey⟩ := (hhas (.str name)).1
      (Entries.has_iff_exists.2 ⟨_, hmem, BEq.refl (Scalar.str name)⟩)
    refine ⟨e, he, ?_⟩
    rw [Scalar.str_beq_iff.1 hkey]
    rfl
  · rintro ⟨e, he, hname⟩
    obtain ⟨b, hb, hbody⟩ := exists_body_of_ne_nil h (List.ne_nil_of_mem he)
    obtain ⟨properties, hproperties, hhas⟩ := bodyProperties_of_isBody hbody
    obtain ⟨e', he', hkey⟩ := Entries.has_iff_exists.1 ((hhas e.1).2 ⟨e, he, BEq.refl e.1⟩)
    have hstandard : b ∈ o.standardBodies := by
      rw [Operation.standardBodies, List.mem_filter, hbody.name]
      exact ⟨hb, rfl⟩
    have hfield : IsStandardField o e'.1 e'.2 := ⟨b, hstandard, properties, hproperties, he'⟩
    -- the code could not be written, if the key were no text
    obtain ⟨s, hstatement⟩ := exists_fieldStatement hs hfield
    obtain ⟨n, type, hn, -⟩ := eq_of_fieldStatement hstatement
    rw [hn] at hkey hfield
    rw [Scalar.beq_str_iff.1 hkey] at hname
    rw [← Checked.good.inj hname]
    exact ⟨_, hfield⟩

/-! ### Query fields -/

theorem exists_queryParameter_iff (h : IsStagedFrom enter fields o) :
    (∃ p ∈ o.queryParameters, p.name = name) ↔
      ∃ bucket, isSingle bucket .query = true ∧
        ∃ e ∈ listedIn enter bucket .query fields, Wire.checkText (.scalar e.1) = .good name := by
  obtain ⟨path, required, filters, hparameters, hpath, hrequired, hfilters⟩ := h.parameters
  have hrow {required : Bool} {listed : Fields} {ps : List Parameter}
      (hps : List.Forall₂ (IsQueryField enter required) listed ps) :
      (∃ p ∈ ps.filter (·.location == .query), p.name = name) ↔
        ∃ e ∈ listed, Wire.checkText (.scalar e.1) = .good name := by
    simp only [List.mem_filter, beq_iff_eq]
    constructor
    · rintro ⟨p, ⟨hp, -⟩, rfl⟩
      obtain ⟨e, he, hfield⟩ := Outcome.exists_left_of_mem hps hp
      exact ⟨e, he, hfield.name⟩
    · rintro ⟨e, he, hname⟩
      obtain ⟨p, hp, hfield⟩ := Outcome.exists_right_of_mem hps he
      exact ⟨p, ⟨hp, hfield.location⟩, Checked.good.inj (hfield.name.symm.trans hname)⟩
  have hnone : path.filter (·.location == .query) = [] := by
    refine List.filter_eq_nil_iff.2 fun p hp => ?_
    rw [hpath.location p hp]
    decide
  rw [Operation.queryParameters, hparameters, List.filter_append, List.filter_append, hnone,
    List.nil_append]
  simp only [List.mem_append, or_and_right, exists_or, hrow hrequired, hrow hfilters]
  constructor
  · rintro (hfield | hfield)
    · exact ⟨.mandatory, rfl, hfield⟩
    · exact ⟨.filters, rfl, hfield⟩
  · rintro ⟨bucket, hsingle, hfield⟩
    cases bucket with
    | mandatory => exact Or.inl hfield
    | filters => exact Or.inr hfield
    | _ => cases hsingle

theorem exists_mem_fieldGroups_iff {P : FieldGroup → Prop} :
    (∃ g ∈ o.fieldGroups, P g) ↔ (∃ g ∈ o.additionalFields, P g) ∨ ∃ g ∈ o.updateFields, P g := by
  simp [Operation.fieldGroups, or_and_right, exists_or]

/-- The groups of query fields are those of the buckets whose query fields are in collections. -/
theorem exists_group_iff (h : IsStagedFrom enter fields o) {P : GroupName → Prop} :
    (∃ g ∈ o.fieldGroups, P g.name) ↔ ∃ bucket, isSingle bucket .query = false ∧
      listedIn enter bucket .query fields ≠ [] ∧ P bucket.group := by
  have hcollection {name : GroupName} {listed : Fields} {group : Option FieldGroup}
      (hg : IsCollection enter name listed group) :
      (∃ g ∈ group, P g.name) ↔ listed ≠ [] ∧ P name := by
    rw [← hg.isSome_iff]
    constructor
    · rintro ⟨g, hmem, hP⟩
      rw [hg.name g hmem] at hP
      exact ⟨Option.isSome_of_mem hmem, hP⟩
    · rintro ⟨hsome, hP⟩
      obtain ⟨g, hmem⟩ := Option.isSome_iff_exists.1 hsome
      exact ⟨g, hmem, by rwa [hg.name g hmem]⟩
  rw [exists_mem_fieldGroups_iff, hcollection h.additionalFields, hcollection h.updateFields]
  constructor
  · rintro (hgroup | hgroup)
    · exact ⟨.additional, rfl, hgroup⟩
    · exact ⟨.updates, rfl, hgroup⟩
  · rintro ⟨bucket, hsingle, hgroup⟩
    cases bucket with
    | additional => exact Or.inl hgroup
    | updates => exact Or.inr hgroup
    | _ => cases hsingle

/-! ### Requests -/

theorem carrierOf_of_isSingle {bucket : Bucket} {channel : Channel}
    (hsingle : isSingle bucket channel = true) :
    carrierOf enter fields bucket channel = channel.carrier := by
  rw [carrierOf, hsingle]
  rfl

theorem carrierOf_query_iff {bucket : Bucket} (hsingle : isSingle bucket .query = false) :
    carrierOf enter fields bucket .query = .query ↔ listedIn enter bucket .body fields = [] := by
  rw [carrierOf, hsingle]
  cases listedIn enter bucket .body fields with
  | nil => simp [Channel.carrier]
  | cons e rest => simp

theorem carrierOf_body {bucket : Bucket} : carrierOf enter fields bucket .body = .body := by
  rw [carrierOf]
  split <;> rfl

theorem isEnteredIn_iff_of_isSingle {bucket : Bucket} {channel : Channel} {e : Scalar × Value}
    (hsingle : isSingle bucket channel = true) :
    IsEnteredIn bucket channel e name ↔ Wire.checkText (.scalar e.1) = .good name := by
  rw [IsEnteredIn, if_pos hsingle]

theorem isEnteredIn_iff_of_not_isSingle {bucket : Bucket} {channel : Channel} {e : Scalar × Value}
    (hsingle : isSingle bucket channel = false) :
    IsEnteredIn bucket channel e name ↔ Naming.camel bucket.group.text = name := by
  rw [IsEnteredIn, hsingle, if_neg Bool.false_ne_true]

theorem eq_mandatory_of_isSingle {bucket : Bucket} (hsingle : isSingle bucket .body = true) :
    bucket = .mandatory := by
  cases bucket <;> first | rfl | cases hsingle

theorem ne_mandatory_of_not_isSingle {bucket : Bucket} {channel : Channel}
    (hsingle : isSingle bucket channel = false) : bucket ≠ .mandatory := by
  rintro rfl
  cases hsingle

/-- What is sent in the query string: query fields that are entered by themselves, and collections
of query fields whose bucket has no body fields. -/
theorem sends_query_iff_of_isStagedFrom (h : IsStagedFrom enter fields o)
    (hs : requestStatements helper o = .ok statements) :
    Sends statements .query name ↔ ∃ bucket channel, ∃ e ∈ listedIn enter bucket channel fields,
      IsEnteredIn bucket channel e name ∧ carrierOf enter fields bucket channel = .query := by
  rw [sends_query_iff hs, exists_queryParameter_iff h,
    exists_group_iff h (P := fun g => g ∉ bodyGroups o ∧ Naming.camel g.text = name)]
  constructor
  · rintro (⟨bucket, hsingle, e, he, hname⟩ | ⟨bucket, hsingle, hlisted, hnot, hname⟩)
    · exact ⟨bucket, .query, e, he, (isEnteredIn_iff_of_isSingle hsingle).2 hname,
        carrierOf_of_isSingle hsingle⟩
    · obtain ⟨e, he⟩ := List.exists_mem_of_ne_nil _ hlisted
      refine ⟨bucket, .query, e, he, (isEnteredIn_iff_of_not_isSingle hsingle).2 hname,
        (carrierOf_query_iff hsingle).2 ?_⟩
      by_contra hbody
      exact hnot ((mem_bodyGroups_iff h).2 ⟨ne_mandatory_of_not_isSingle hsingle, hbody⟩)
  · rintro ⟨bucket, channel, e, he, hentered, hcarrier⟩
    cases channel with
    | body =>
      rw [carrierOf_body] at hcarrier
      cases hcarrier
    | query =>
      cases hsingle : isSingle bucket .query with
      | true =>
        exact Or.inl ⟨bucket, hsingle, e, he, (isEnteredIn_iff_of_isSingle hsingle).1 hentered⟩
      | false =>
        rw [carrierOf_query_iff hsingle] at hcarrier
        refine Or.inr ⟨bucket, hsingle, List.ne_nil_of_mem he, fun hgroup => ?_,
          (isEnteredIn_iff_of_not_isSingle hsingle).1 hentered⟩
        exact ((mem_bodyGroups_iff h).1 hgroup).2 hcarrier

/-- What is sent in the body: the mandatory body fields, and the collections of buckets with body
fields, with all that they hold. -/
theorem sends_body_iff_of_isStagedFrom (h : IsStagedFrom enter fields o)
    (hs : requestStatements helper o = .ok statements) :
    Sends statements .body name ↔ ∃ bucket channel, ∃ e ∈ listedIn enter bucket channel fields,
      IsEnteredIn bucket channel e name ∧ carrierOf enter fields bucket channel = .body := by
  rw [sends_body_iff hs, exists_standardField_iff h hs]
  constructor
  · rintro (⟨e, he, hname⟩ | ⟨group, hgroup, hname⟩)
    · exact ⟨.mandatory, .body, e, he, hname, carrierOf_body⟩
    · obtain ⟨bucket, rfl⟩ := Bucket.group_surjective group
      obtain ⟨hextra, hlisted⟩ := (mem_bodyGroups_iff h).1 hgroup
      obtain ⟨e, he⟩ := List.exists_mem_of_ne_nil _ hlisted
      have hsingle : isSingle bucket .body = false :=
        Bool.eq_false_iff.2 fun hsingle => hextra (eq_mandatory_of_isSingle hsingle)
      exact ⟨bucket, .body, e, he, (isEnteredIn_iff_of_not_isSingle hsingle).2 hname,
        carrierOf_body⟩
  · rintro ⟨bucket, channel, e, he, hentered, hcarrier⟩
    cases hsingle : isSingle bucket channel with
    | true =>
      rw [isEnteredIn_iff_of_isSingle hsingle] at hentered
      rw [carrierOf_of_isSingle hsingle] at hcarrier
      cases channel with
      | query => cases hcarrier
      | body =>
        obtain rfl := eq_mandatory_of_isSingle hsingle
        exact Or.inl ⟨e, he, hentered⟩
    | false =>
      rw [isEnteredIn_iff_of_not_isSingle hsingle] at hentered
      have hlisted : listedIn enter bucket .body fields ≠ [] := by
        cases channel with
        | body => exact List.ne_nil_of_mem he
        | query =>
          intro hnil
          rw [(carrierOf_query_iff hsingle).2 hnil] at hcarrier
          cases hcarrier
      exact Or.inr ⟨bucket.group,
        (mem_bodyGroups_iff h).2 ⟨ne_mandatory_of_not_isSingle hsingle, hlisted⟩, hentered⟩

/-- The code of a staged operation sends exactly the listed fields, each in its carrier. -/
theorem sends_iff_of_isStagedFrom (h : IsStagedFrom enter fields o)
    (hs : requestStatements helper o = .ok statements) {carrier : Carrier} :
    Sends statements carrier name ↔ ∃ bucket channel, ∃ e ∈ listedIn enter bucket channel fields,
      IsEnteredIn bucket channel e name ∧ carrierOf enter fields bucket channel = carrier := by
  cases carrier with
  | query => exact sends_query_iff_of_isStagedFrom h hs
  | body => exact sends_body_iff_of_isStagedFrom h hs

/-- A field that is not entered by itself is in the collection of its bucket. -/
theorem isHeld_of_mem (h : IsStagedFrom enter fields o)
    (hs : requestStatements helper o = .ok statements) {bucket : Bucket} {channel : Channel}
    (hsingle : isSingle bucket channel = false) {e : Scalar × Value}
    (he : e ∈ listedIn enter bucket channel fields) : IsHeld o bucket e := by
  obtain ⟨groups, hgroups⟩ := exists_groupsOf hs
  cases channel with
  | body =>
    obtain ⟨b, hb, hbody⟩ := exists_body_of_ne_nil h (List.ne_nil_of_mem he)
    obtain ⟨properties, hproperties, hhas⟩ := bodyProperties_of_isBody hbody
    have hextra : b ∈ o.extraBodies := by
      rw [Operation.extraBodies, List.mem_filter, hbody.name, bne_iff_ne]
      refine ⟨hb, fun heq => ?_⟩
      rw [Bucket.group_eq_standard_iff.1 heq] at hsingle
      cases hsingle
    refine ⟨groups, e.1, hgroups, (holdsKey_groupsOf_iff hgroups).2 (Or.inl ?_), Or.inl rfl⟩
    exact ⟨b, hextra, hbody.name, properties, hproperties, (hhas e.1).2 ⟨e, he, BEq.refl e.1⟩⟩
  | query =>
    have hcollection {group : Option FieldGroup}
        (hg : IsCollection enter bucket.group (listedIn enter bucket .query fields) group) :
        ∃ g ∈ group, g.name = bucket.group ∧ ∃ p ∈ g.options,
          Wire.checkText (.scalar e.1) = .good p.name := by
      obtain ⟨g, hmem⟩ := Option.isSome_iff_exists.1 (hg.isSome_iff.2 (List.ne_nil_of_mem he))
      have hoptions := hg.options
      rw [hmem] at hoptions
      obtain ⟨p, hp, hfield⟩ := Outcome.exists_right_of_mem hoptions he
      exact ⟨g, hmem, hg.name g hmem, p, hp, hfield.name⟩
    obtain ⟨g, hg, hname, p, hp, htext⟩ : ∃ g ∈ o.fieldGroups, g.name = bucket.group ∧
        ∃ p ∈ g.options, Wire.checkText (.scalar e.1) = .good p.name := by
      rw [exists_mem_fieldGroups_iff]
      cases bucket with
      | additional => exact Or.inl (hcollection h.additionalFields)
      | updates => exact Or.inr (hcollection h.updateFields)
      | _ => cases hsingle
    exact ⟨groups, .str p.name, hgroups, (holdsKey_groupsOf_iff hgroups).2
      (Or.inr ⟨g, hg, hname, p, hp, rfl⟩), Or.inr ⟨p.name, htext, rfl⟩⟩

/-! ### Schemas -/

theorem isListed_of_stage (henter : enter = id ∨ enter = Value.opened) {check : Bool}
    {document : Value} {m : NodeModel} (h : stage enter check document = .ok m)
    {r : Text × List Operation} (hr : r ∈ m.resources) (ho : o ∈ r.2) :
    ∃ fields, IsListed enter document r.1 fields ∧ IsStagedFrom enter fields o := by
  obtain ⟨main, listed, sorted, hmain, hlisted, hsorted, hrows⟩ := resources_of_stage h
  obtain ⟨-, rfl⟩ := sortedFields_eq_ok.1 hsorted
  obtain ⟨e, he, hname, hoperations⟩ := Outcome.exists_left_of_mem hrows hr
  obtain ⟨members, staged, hmembers, hstaged, hperm, -⟩ :=
    (areListed_of_stageResource (keepsKeys_of_eq henter) hoperations).perm
  obtain ⟨v, hv, fields, hfields, hstagedFrom⟩ :=
    Outcome.exists_left_of_mem hstaged (hperm.mem_iff.1 ho)
  have hentry : e ∈ listed := (Fields.sorted_perm listed).mem_iff.1 he
  exact ⟨fields, ⟨main, listed, e, members, v, hmain, hlisted, hentry, hname, hmembers, hv,
    hfields⟩, hstagedFrom⟩

/-- **Where fields are sent.** The code of an operation of a staged schema sends exactly the fields
that are listed for the operation, by themselves or in the collections that hold them. Those of a
channel are sent in its carrier, but in the body if their collection holds body fields, too. -/
theorem routes_of_stage (henter : enter = id ∨ enter = Value.opened) {check : Bool}
    {document : Value} {m : NodeModel} (h : stage enter check document = .ok m) :
    ∀ r ∈ m.resources, ∀ o ∈ r.2, ∃ fields, IsListed enter document r.1 fields ∧
      IsStagedFrom enter fields o ∧
      ∀ helper statements, requestStatements helper o = .ok statements →
        (∀ carrier name, Sends statements carrier name ↔
          ∃ bucket channel, ∃ e ∈ listedIn enter bucket channel fields,
            IsEnteredIn bucket channel e name ∧
              carrierOf enter fields bucket channel = carrier) ∧
        ∀ bucket channel, isSingle bucket channel = false →
          ∀ e ∈ listedIn enter bucket channel fields, IsHeld o bucket e := by
  intro r hr o ho
  obtain ⟨fields, hlisted, hstaged⟩ := isListed_of_stage henter h hr ho
  refine ⟨fields, hlisted, hstaged, fun helper statements hs => ⟨fun carrier name => ?_, ?_⟩⟩
  · exact sends_iff_of_isStagedFrom hstaged hs
  · intro bucket channel hsingle e he
    exact isHeld_of_mem hstaged hs hsingle he

/-- An operation that lists additional fields for both channels. -/
def giftFields : Fields :=
  [(.str "endpoint", .str "/gifts"), (.str "requestMethod", .str "POST"),
    (.str "operationId", .str "create"), (.str "additionalFields", bucketOf "notify" "color")]

/-- A schema that lists it under its only resource. -/
def giftSchema : Value :=
  .record [("metaParams", .record [("serviceName", .str "Shop")]),
    ("mainParams", .record [("gift", .list [.map giftFields])])]

theorem routes_giftSchema : ∃ m, stage id true giftSchema = .ok m ∧
    ∀ r ∈ m.resources, ∀ o ∈ r.2, ∃ fields, IsListed id giftSchema r.1 fields ∧
      ∀ helper statements, requestStatements helper o = .ok statements →
        ∀ carrier name, Sends statements carrier name ↔
          ∃ bucket channel, ∃ e ∈ listedIn id bucket channel fields,
            IsEnteredIn bucket channel e name ∧ carrierOf id fields bucket channel = carrier := by
  obtain ⟨m, h⟩ := Outcome.isOk_iff.1 (by decide +kernel : (stage id true giftSchema).isOk = true)
  refine ⟨m, h, fun r hr o ho => ?_⟩
  obtain ⟨fields, hlisted, -, hroutes⟩ := routes_of_stage (Or.inl rfl) h r hr o ho
  exact ⟨fields, hlisted, fun helper statements hs => (hroutes helper statements hs).1⟩

/-- The statements of its code. -/
def giftStatements : List Statement :=
  [.begin .body, .readGroup "additionalFields" "additionalFields", .copy .body "additionalFields",
    .endpoint "/gifts", .call ⟨"giftApiRequest", "POST", false, true, false⟩]

theorem statements_giftSchema : ∃ m, stage id true giftSchema = .ok m ∧
    ∃ r ∈ m.resources, ∃ o ∈ r.2, requestStatements "giftApiRequest" o = .ok giftStatements ∧
      ∃ groups, groupsOf o = .ok groups ∧ HoldsKey groups .additionalFields (.str "notify") := by
  have hrun : ((stage id true giftSchema).toOption.any fun m =>
      m.resources.any fun r => r.2.any fun o =>
        ((requestStatements "giftApiRequest" o).toOption.any fun s => s == giftStatements) &&
          (groupsOf o).toOption.any fun groups =>
            (groups.lookup .additionalFields).any (Entries.has (.str "notify"))) = true := by
    decide +kernel
  obtain ⟨m, hm, hrun⟩ := Outcome.exists_ok_of_any hrun
  obtain ⟨r, hr, hrun⟩ := List.any_eq_true.1 hrun
  obtain ⟨o, ho, hrun⟩ := List.any_eq_true.1 hrun
  obtain ⟨hstatements, hgroups⟩ := Bool.and_eq_true_iff.1 hrun
  obtain ⟨statements, hstatements, heq⟩ := Outcome.exists_ok_of_any hstatements
  obtain ⟨groups, hgroups, hholds⟩ := Outcome.exists_ok_of_any hgroups
  obtain ⟨properties, hlookup, hhas⟩ := (Option.any_eq_true _ _).1 hholds
  rw [beq_iff_eq] at heq
  exact ⟨m, hm, r, hr, o, ho, heq ▸ hstatements, groups, hgroups, properties, hlookup, hhas⟩

/-- A field for the query string is sent in the body, and not in the query string. -/
theorem sends_notify_in_body : ∃ m, stage id true giftSchema = .ok m ∧
    ∃ r ∈ m.resources, ∃ o ∈ r.2,
      (∃ e ∈ listedIn id .additional .query giftFields, e.1 = .str "notify") ∧
      (∃ groups, groupsOf o = .ok groups ∧ HoldsKey groups .additionalFields (.str "notify")) ∧
      requestStatements "giftApiRequest" o = .ok giftStatements ∧
      Sends giftStatements .body "additionalFields" ∧
      ¬ Sends giftStatements .query "additionalFields" := by
  obtain ⟨m, hm, r, hr, o, ho, hstatements, hgroups⟩ := statements_giftSchema
  refine ⟨m, hm, r, hr, o, ho, ⟨_, List.mem_cons_self, rfl⟩, hgroups, hstatements, ?_, ?_⟩
  · exact Or.inr ⟨"additionalFields", by decide, by decide⟩
  · rintro (⟨key, type, hstore⟩ | ⟨constant, -, hcopy⟩)
    · simp [giftStatements] at hstore
    · simp [giftStatements] at hcopy

end NodeForge.Outline
