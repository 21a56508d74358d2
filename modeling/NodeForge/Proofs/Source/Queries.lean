import NodeForge.Proofs.OpenApi.Parameters
import NodeForge.Proofs.Outline.Routes
import NodeForge.Proofs.Source.Keys

/-!
# How query parameters are entered and read

The optional query parameters of a document are gathered in one object called `query`, which is
entered as a collection and copied as a whole. Both sides of the code find this object out by
themselves, and not in the same way: it is read as a group if it is called `query` and optional, and
it is a collection if it is called `query` and has properties (`isDecided_of`). `queries_of_stage`
says for the operations of both formats where the two come apart.
-/

namespace NodeForge.Source

variable {o : Operation} {helper resource : Text} {statements : List Statement}
  {blocks : List FieldBlock}

/-! ### Handling -/

/-- Whether a block is a collection of fields, each of which may be left out. -/
def FieldBlock.isCollection : FieldBlock → Bool
  | .collection .. => true
  | _ => false

/-- Whether a parameter is an object with properties. -/
def hasProperties (p : Parameter) : Bool := (Fields.get "properties" p.schema).truthy

/-- A query parameter with the statements that read it and the block that it is entered in. -/
structure Handling where
  parameter : Parameter
  statements : List Statement
  block : FieldBlock

namespace Handling

/-- Whether a parameter is read as a group of fields that is copied as a whole. -/
def IsWhole (x : Handling) : Prop :=
  x.statements = [.readGroup "query" "query", .copy .query "query"]

/-- Whether a parameter is read as one value that is stored under the key that its name makes. -/
def IsStored (x : Handling) : Prop :=
  ∃ type, x.statements = [.store .query (Naming.camel x.parameter.name) x.parameter.name type]

/-- Whether a parameter is read as a whole exactly if it is entered as a collection. -/
def Agrees (x : Handling) : Prop := x.IsWhole ↔ x.block.isCollection = true

/-- What decides how a parameter is read, and how it is entered. -/
structure IsDecided (x : Handling) : Prop where
  whole_iff : x.IsWhole ↔ x.parameter.name = "query" ∧ x.parameter.required = false
  stored : ¬ x.IsWhole → x.IsStored
  collection_iff : x.block.isCollection = true ↔
    x.parameter.name = "query" ∧ hasProperties x.parameter = true
  name : x.block.name = x.parameter.name

end Handling

/-- Whether the query parameters of an operation are handled like this, one after the other, by its
statements and its blocks. -/
structure AreHandled (o : Operation) (statements : List Statement) (blocks : List FieldBlock)
    (handled : List Handling) : Prop where
  parameters : handled.map Handling.parameter = o.queryParameters
  statements : handled.flatMap Handling.statements <:+: statements
  blocks : (handled.map Handling.block).Sublist blocks
  decided : ∀ x ∈ handled, x.IsDecided

theorem isCollection_of_ofGroup {title : Text} {properties : Value} {shown : Lines}
    {b : FieldBlock} (h : FieldBlock.ofGroup title properties shown = .ok b) :
    b.isCollection = true := by
  obtain ⟨entries, -, h⟩ := Outcome.bind_eq_ok.1 h
  obtain ⟨options, -, h⟩ := Outcome.bind_eq_ok.1 h
  rw [← Outcome.pure_eq_ok.1 h]
  rfl

theorem isCollection_of_ofSchema {key : Scalar} {required : Bool} {shown : Lines} {schema : Value}
    {b : FieldBlock} (h : FieldBlock.ofSchema key required shown schema = .ok b) :
    b.isCollection = false := by
  cases schema with
  | map es =>
    rw [FieldBlock.ofSchema, FieldBlock.ofFields] at h
    split at h
    · obtain ⟨description, -, h⟩ := Outcome.bind_eq_ok.1 h
      obtain ⟨nestedKey, -, h⟩ := Outcome.bind_eq_ok.1 h
      obtain ⟨values, -, h⟩ := Outcome.bind_eq_ok.1 h
      rw [← Outcome.pure_eq_ok.1 h]
      rfl
    · obtain ⟨field, -, h⟩ := Outcome.bind_eq_ok.1 h
      rw [← Outcome.pure_eq_ok.1 h]
      rfl
  | _ => cases h

/-- The two sides decide from the name and one more thing each: whether the parameter is optional,
and whether it has properties. -/
theorem isDecided_of {shown : Lines} {x : Handling} (hlocation : x.parameter.location = .query)
    (hreads : queryStatements x.parameter = .ok x.statements)
    (hshows : parameterBlock shown x.parameter = .ok x.block) : x.IsDecided := by
  have hgroup : isQueryGroup x.parameter = true ↔
      x.parameter.name = "query" ∧ x.parameter.required = false := by
    rw [isQueryGroup, Bool.and_eq_true, beq_iff_eq, Bool.not_eq_true']
  have hcollection : isQueryCollection x.parameter = true ↔
      x.parameter.name = "query" ∧ hasProperties x.parameter = true := by
    rw [isQueryCollection, get_properties_describedSchema, hlocation, Bool.and_eq_true,
      Bool.and_eq_true, beq_iff_eq, hasProperties]
    simp
  have hwhole : x.IsWhole ↔ isQueryGroup x.parameter = true := by
    rcases eq_of_queryStatements hreads with ⟨hyes, hrow⟩ | ⟨hno, type, hrow⟩
    · exact iff_of_true hrow hyes
    · rw [Handling.IsWhole, hrow, hno]
      exact iff_of_false (by simp) Bool.false_ne_true
  refine ⟨hwhole.trans hgroup, fun hsingle => ?_, ?_, (block_of_parameterBlock hshows).1⟩
  · rcases eq_of_queryStatements hreads with ⟨-, hrow⟩ | ⟨-, type, hrow⟩
    · exact absurd hrow hsingle
    · exact ⟨type, hrow⟩
  · rw [← hcollection]
    unfold parameterBlock at hshows
    dsimp only at hshows
    split at hshows
    · next hyes => exact iff_of_true (isCollection_of_ofGroup hshows) hyes
    · next hno =>
      rw [isCollection_of_ofSchema hshows]
      exact iff_of_false Bool.false_ne_true hno

/-! ### Operations -/

/-- Two rows that belong to the same parameters are what handles these. -/
theorem exists_handled_of_forall₂ {R : Parameter → List Statement → Prop}
    {S : Parameter → FieldBlock → Prop} {ps : List Parameter} {rows : List (List Statement)}
    {bs : List FieldBlock} (hrows : List.Forall₂ R ps rows) (hbs : List.Forall₂ S ps bs) :
    ∃ handled : List Handling, handled.map Handling.parameter = ps ∧
      handled.map Handling.statements = rows ∧ handled.map Handling.block = bs ∧
      ∀ x ∈ handled, R x.parameter x.statements ∧ S x.parameter x.block := by
  induction hrows generalizing bs with
  | nil =>
    rw [List.forall₂_nil_left_iff] at hbs
    rw [hbs]
    exact ⟨[], rfl, rfl, rfl, nofun⟩
  | @cons p row ps rows hrow _ ih =>
    obtain ⟨b, rest, hb, hrest, rfl⟩ := List.forall₂_cons_left_iff.1 hbs
    obtain ⟨handled, hps, hrows, hbs, hall⟩ := ih hrest
    refine ⟨⟨p, row, b⟩ :: handled, ?_, ?_, ?_, fun x hx => ?_⟩
    · rw [List.map_cons, hps]
    · rw [List.map_cons, hrows]
    · rw [List.map_cons, hbs]
    · rcases List.mem_cons.1 hx with rfl | hx
      · exact ⟨hrow, hb⟩
      · exact hall x hx

theorem infix_filling (carrier : Carrier) (row rest : List Statement) :
    row <:+: filling carrier (row ++ rest) := by
  unfold filling
  split
  · next hempty =>
    rw [List.isEmpty_iff, List.append_eq_nil_iff] at hempty
    exact hempty.1 ▸ List.nil_infix
  · exact (List.prefix_append row rest).isInfix.trans (List.suffix_cons _ _).isInfix

/-- The query parameters of an operation are handled one by one. -/
theorem exists_handled (hstatements : requestStatements helper o = .ok statements)
    (hblocks : operationBlocks resource o = .ok blocks) :
    ∃ handled, AreHandled o statements blocks handled := by
  obtain ⟨query, hquery, hstatements⟩ := Outcome.bind_eq_ok.1 hstatements
  obtain ⟨body, -, hstatements⟩ := Outcome.bind_eq_ok.1 hstatements
  obtain ⟨rows, hrows, hquery⟩ := Outcome.bind_eq_ok.1 hquery
  obtain ⟨parameters, standard, groups, blocksOfGroups, hparameters, -, -, -, rfl⟩ :=
    operationBlocks_eq_ok hblocks
  rw [← Outcome.pure_eq_ok.1 hstatements, ← Outcome.pure_eq_ok.1 hquery]
  obtain ⟨shown, hshown, hforms⟩ := Outcome.exists_sublist_of_filter (·.location == .query)
    (Outcome.mapM_eq_ok.1 hparameters)
  obtain ⟨handled, hps, hrowsEq, hbs, hall⟩ :=
    exists_handled_of_forall₂ (Outcome.mapM_eq_ok.1 hrows) hforms
  refine ⟨handled, hps, ?_, ?_, fun x hx => ?_⟩
  · have hflat : handled.flatMap Handling.statements = rows.flatten := by
      rw [List.flatMap_def, hrowsEq]
    rw [hflat]
    have hinfix := infix_filling .query rows.flatten
      ((o.fieldGroups.filter fun g => !(bodyGroups o).contains g.name).flatMap
        fun g => groupStatements .query g.name)
    refine hinfix.trans ?_
    rw [List.append_assoc, List.append_assoc]
    exact (List.prefix_append _ _).isInfix.trans (List.suffix_append _ _).isInfix
  · rw [hbs, List.append_assoc, List.append_assoc]
    exact hshown.trans (List.sublist_append_left _ _)
  · have hmem : x.parameter ∈ o.queryParameters := by
      rw [← hps]
      exact List.mem_map_of_mem hx
    obtain ⟨hreads, hshows⟩ := hall x hx
    exact isDecided_of (beq_iff_eq.1 (List.mem_filter.1 hmem).2) hreads hshows

theorem AreHandled.mem_queryParameters {handled : List Handling}
    (h : AreHandled o statements blocks handled) {x : Handling} (hx : x ∈ handled) :
    x.parameter ∈ o.queryParameters := by
  rw [← h.parameters]
  exact List.mem_map_of_mem hx

/-! ### Documents -/

/-- The object of the optional query parameters has properties if one of them travels. -/
theorem hasProperties_of_gathers {m : OpenApi.Mention} {p : Parameter} (h : m.Gathers p) :
    hasProperties p = true ↔ ∃ raw ∈ m.optionalQuery, OpenApi.travels m.method raw = true := by
  obtain ⟨properties, fields, hschema, hperm, hfields, -⟩ := h.properties
  have hget : Fields.get "properties" p.schema = .map properties := by
    rw [hschema]
    rfl
  have hlength : properties.length =
      (m.optionalQuery.filter (OpenApi.travels m.method)).length := by
    rw [hperm.length_eq, List.length_map, hfields.length_eq]
  have hempty : hasProperties p = true ↔ properties ≠ [] := by
    rw [hasProperties, hget, Value.truthy]
    cases properties <;> simp
  rw [hempty, ← List.length_pos_iff, hlength, List.length_pos_iff_exists_mem]
  simp only [List.mem_filter]

/-- A query parameter of a document is a mandatory one, or the object of the optional ones. -/
theorem madeFrom_or_gathers {m : OpenApi.Mention} {path required gathered : List Parameter}
    (heq : o.parameters = path ++ required ++ gathered)
    (hparts : m.Parts o.endpoint path required gathered) {p : Parameter}
    (hp : p ∈ o.queryParameters) :
    (∃ raw ∈ m.requiredQuery, OpenApi.IsMadeFrom .query m.method raw p) ∨ m.Gathers p := by
  obtain ⟨hp, hlocation⟩ := List.mem_filter.1 hp
  rw [heq, List.mem_append, List.mem_append] at hp
  rcases hp with (hp | hp) | hp
  · obtain ⟨name, -, -, raw, hmade, -⟩ :=
      Outcome.exists_left_of_mem hparts.forall₂_placeholders hp
    rw [hmade.location] at hlocation
    cases hlocation
  · exact Or.inl (Outcome.exists_left_of_mem hparts.required hp)
  · rcases hparts.gathered with ⟨-, rfl⟩ | ⟨-, query, rfl, hgathers⟩
    · cases hp
    · rw [List.mem_singleton.1 hp]
      exact Or.inr hgathers

theorem Handling.IsDecided.isCollection_eq_false {x : Handling} (h : x.IsDecided)
    (hproperties : hasProperties x.parameter = false) : x.block.isCollection = false := by
  rw [← Bool.not_eq_true, h.collection_iff, hproperties]
  simp

/-- A mandatory parameter is never read as a whole. -/
theorem Handling.IsDecided.agrees_iff_of_required {x : Handling} (h : x.IsDecided)
    (hrequired : x.parameter.required = true) :
    x.Agrees ↔ ¬ (x.parameter.name = "query" ∧ hasProperties x.parameter = true) := by
  rw [Handling.Agrees, h.whole_iff, h.collection_iff, hrequired]
  simp

/-- The object of the optional parameters is always read as a whole. -/
theorem Handling.IsDecided.agrees_iff_of_gathers {x : Handling} (h : x.IsDecided)
    {m : OpenApi.Mention} (hgathers : m.Gathers x.parameter) :
    x.Agrees ↔ ∃ raw ∈ m.optionalQuery, OpenApi.travels m.method raw = true := by
  rw [Handling.Agrees, h.whole_iff, h.collection_iff, hgathers.name, hgathers.required,
    hasProperties_of_gathers hgathers]
  simp

/-! ### Custom schemas -/

/-- A query field of a custom schema has no properties. -/
theorem hasProperties_of_isQueryField {enter : Value → Value} {required : Bool}
    {e : Scalar × Value} {p : Parameter} (h : Outline.IsQueryField enter required e p) :
    hasProperties p = false := by
  rw [hasProperties, h.schema, Outline.querySchema]
  split <;> rfl

theorem mandatory_or_filter {enter : Value → Value} {fields : Fields}
    (h : Outline.IsStagedFrom enter fields o) {p : Parameter} (hp : p ∈ o.queryParameters) :
    (∃ e ∈ Outline.listedIn enter .mandatory .query fields, Outline.IsQueryField enter true e p) ∨
      ∃ e ∈ Outline.listedIn enter .filters .query fields,
        Outline.IsQueryField enter false e p := by
  obtain ⟨path, required, filters, heq, hpath, hrequired, hfilters⟩ := h.parameters
  obtain ⟨hp, hlocation⟩ := List.mem_filter.1 hp
  rw [heq, List.mem_append, List.mem_append] at hp
  rcases hp with (hp | hp) | hp
  · rw [hpath.location p hp] at hlocation
    cases hlocation
  · exact Or.inl (Outcome.exists_left_of_mem hrequired hp)
  · exact Or.inr (Outcome.exists_left_of_mem hfilters hp)

/-! ### The main result -/

/-- How the two sides go together on a query parameter of a document: on a mandatory one unless it
is called `query` and has properties, and on the object of the optional ones unless none of these
travels. -/
inductive IsDocumentQuery (m : OpenApi.Mention) (x : Handling) : Prop where
  | mandatory {raw : Fields} (hraw : raw ∈ m.requiredQuery)
      (hmade : OpenApi.IsMadeFrom .query m.method raw x.parameter)
      (hagrees : x.Agrees ↔ ¬ (x.parameter.name = "query" ∧ hasProperties x.parameter = true))
  | gathered (hgathers : m.Gathers x.parameter)
      (hagrees : x.Agrees ↔ ∃ raw ∈ m.optionalQuery, OpenApi.travels m.method raw = true)

/-- How they go together on a query parameter of a custom schema, which is never entered as a
collection: always on a mandatory one, and on a filter unless it is called `query`. -/
inductive IsSchemaQuery (enter : Value → Value) (fields : Fields) (x : Handling) : Prop where
  | mandatory {e : Scalar × Value} (he : e ∈ Outline.listedIn enter .mandatory .query fields)
      (hfield : Outline.IsQueryField enter true e x.parameter)
      (hblock : x.block.isCollection = false) (hagrees : x.Agrees)
  | filter {e : Scalar × Value} (he : e ∈ Outline.listedIn enter .filters .query fields)
      (hfield : Outline.IsQueryField enter false e x.parameter)
      (hblock : x.block.isCollection = false) (hagrees : x.Agrees ↔ x.parameter.name ≠ "query")

theorem isDocumentQuery_of {m : OpenApi.Mention} {path required gathered : List Parameter}
    (heq : o.parameters = path ++ required ++ gathered)
    (hparts : m.Parts o.endpoint path required gathered) {x : Handling} (h : x.IsDecided)
    (hx : x.parameter ∈ o.queryParameters) : IsDocumentQuery m x := by
  rcases madeFrom_or_gathers heq hparts hx with ⟨raw, hraw, hmade⟩ | hgathers
  · exact .mandatory hraw hmade (h.agrees_iff_of_required hmade.required)
  · exact .gathered hgathers (h.agrees_iff_of_gathers hgathers)

theorem isSchemaQuery_of {enter : Value → Value} {fields : Fields}
    (hstaged : Outline.IsStagedFrom enter fields o) {x : Handling} (h : x.IsDecided)
    (hx : x.parameter ∈ o.queryParameters) : IsSchemaQuery enter fields x := by
  rcases mandatory_or_filter hstaged hx with ⟨e, he, hfield⟩ | ⟨e, he, hfield⟩
  · have hproperties := hasProperties_of_isQueryField hfield
    refine .mandatory he hfield (h.isCollection_eq_false hproperties) ?_
    rw [h.agrees_iff_of_required hfield.required, hproperties]
    simp
  · have hblock := h.isCollection_eq_false (hasProperties_of_isQueryField hfield)
    refine .filter he hfield hblock ?_
    rw [Handling.Agrees, h.whole_iff, hblock, hfield.required]
    simp

/-- **Query parameters.** The query parameters of a staged operation are handled one by one: one
that is called `query` and optional is read as a whole, any other one is stored under the key that
its name makes, and one that is called `query` and has properties is entered as a collection. The
two sides agree as far as `IsDocumentQuery` and `IsSchemaQuery` say. -/
theorem queries_of_stage (document : Value) (helper : Text) :
    (∀ given nodeColor staged, OpenApi.stage given nodeColor document = .ok staged →
      ∀ r ∈ staged.model.resources, ∀ o ∈ r.2, ∃ m ∈ OpenApi.mentions document,
        m.Makes r.1 o.operationId o ∧
        ∀ statements blocks, requestStatements helper o = .ok statements →
          operationBlocks r.1 o = .ok blocks → ∃ handled, AreHandled o statements blocks handled ∧
            ∀ x ∈ handled, IsDocumentQuery m x) ∧
    ∀ enter check m, (enter = id ∨ enter = Value.opened) →
      Outline.stage enter check document = .ok m →
      ∀ r ∈ m.resources, ∀ o ∈ r.2, ∃ fields, Outline.IsListed enter document r.1 fields ∧
        ∀ statements blocks, requestStatements helper o = .ok statements →
          operationBlocks r.1 o = .ok blocks → ∃ handled, AreHandled o statements blocks handled ∧
            ∀ x ∈ handled, IsSchemaQuery enter fields x := by
  constructor
  · intro given nodeColor staged h r hr o ho
    obtain ⟨m, hm, -, hmakes⟩ := OpenApi.exists_mention_of_mem h hr ho
    obtain ⟨dropped, hparameters⟩ := hmakes.parameters
    obtain ⟨path, required, gathered, heq, hparts⟩ :=
      OpenApi.parts_of_stageParameters hmakes.endpoint hparameters
    refine ⟨m, hm, hmakes, fun statements blocks hstatements hblocks => ?_⟩
    obtain ⟨handled, hhandled⟩ := exists_handled hstatements hblocks
    exact ⟨handled, hhandled, fun x hx =>
      isDocumentQuery_of heq hparts (hhandled.decided x hx) (hhandled.mem_queryParameters hx)⟩
  · intro enter check m henter h r hr o ho
    obtain ⟨fields, hlisted, hstaged⟩ := Outline.isListed_of_stage henter h hr ho
    refine ⟨fields, hlisted, fun statements blocks hstatements hblocks => ?_⟩
    obtain ⟨handled, hhandled⟩ := exists_handled hstatements hblocks
    exact ⟨handled, hhandled, fun x hx =>
      isSchemaQuery_of hstaged (hhandled.decided x hx) (hhandled.mem_queryParameters hx)⟩

/-- Whether an operation of some resources has statements and blocks that pass a test. -/
def anyOperation (resources : List (Text × List Operation))
    (test : Operation → List Statement → List FieldBlock → Bool) : Bool :=
  resources.any fun r => r.2.any fun o =>
    (requestStatements "shopApiRequest" o).toOption.any fun statements =>
      (operationBlocks r.1 o).toOption.any (test o statements)

theorem exists_of_anyOperation {resources : List (Text × List Operation)}
    {test : Operation → List Statement → List FieldBlock → Bool}
    (h : anyOperation resources test = true) :
    ∃ r ∈ resources, ∃ o ∈ r.2, ∃ statements blocks,
      requestStatements "shopApiRequest" o = .ok statements ∧
        operationBlocks r.1 o = .ok blocks ∧ test o statements blocks = true := by
  obtain ⟨r, hr, h⟩ := List.any_eq_true.1 h
  obtain ⟨o, ho, h⟩ := List.any_eq_true.1 h
  obtain ⟨statements, hstatements, h⟩ := Outcome.exists_ok_of_any h
  obtain ⟨blocks, hblocks, htest⟩ := Outcome.exists_ok_of_any h
  exact ⟨r, hr, o, ho, statements, blocks, hstatements, hblocks, htest⟩

/-- A shop with an operation that takes some query parameters. -/
def shopWith (parameters : List Value) : Value :=
  .record [("paths", .record [("/pets", .record [
    ("get", .record [("parameters", .list parameters)])])])]

/-- A custom schema with an operation that has a filter. -/
def schemaWith (filter : Text) : Value :=
  .record [("metaParams", .record [("serviceName", .str "Shop")]),
    ("mainParams", .record [("pet", .list [.record [("endpoint", .str "/pets"),
      ("requestMethod", .str "GET"), ("operationId", .str "getAll"),
      ("filters", .record [("queryString", .record [
        (filter, .record [("type", .str "string")])])])]])])]

/-- A shop with a mandatory query parameter and an optional one. -/
def searchShop : Value :=
  shopWith [
    .record [("in", .str "query"), ("name", .str "since"), ("required", .bool true)],
    .record [("in", .str "query"), ("name", .str "page size")]]

theorem queries_searchShop :
    (∃ staged, OpenApi.stage none defaultNodeColor searchShop = .ok staged ∧
      ∃ r ∈ staged.model.resources, ∃ o ∈ r.2, ∃ statements blocks handled m,
        AreHandled o statements blocks handled ∧ handled.length = 2 ∧
          ∀ x ∈ handled, IsDocumentQuery m x) ∧
    ∃ m, Outline.stage id true (schemaWith "since") = .ok m ∧
      ∃ r ∈ m.resources, ∃ o ∈ r.2, ∃ statements blocks handled fields,
        AreHandled o statements blocks handled ∧ handled.length = 1 ∧
          ∀ x ∈ handled, IsSchemaQuery id fields x := by
  constructor
  · obtain ⟨staged, h, hany⟩ := Outcome.exists_ok_of_any
      (by decide +kernel : (OpenApi.stage none defaultNodeColor searchShop).toOption.any
        (fun staged => anyOperation staged.model.resources fun o _ _ =>
          o.queryParameters.length == 2) = true)
    obtain ⟨r, hr, o, ho, statements, blocks, hstatements, hblocks, htest⟩ :=
      exists_of_anyOperation hany
    obtain ⟨m, -, -, hqueries⟩ :=
      (queries_of_stage searchShop "shopApiRequest").1 _ _ _ h r hr o ho
    obtain ⟨handled, hhandled, hall⟩ := hqueries _ _ hstatements hblocks
    rw [beq_iff_eq, ← hhandled.parameters, List.length_map] at htest
    exact ⟨staged, h, r, hr, o, ho, statements, blocks, handled, m, hhandled, htest, hall⟩
  · obtain ⟨m, h, hany⟩ := Outcome.exists_ok_of_any
      (by decide +kernel : (Outline.stage id true (schemaWith "since")).toOption.any
        (fun m => anyOperation m.resources fun o _ _ => o.queryParameters.length == 1) = true)
    obtain ⟨r, hr, o, ho, statements, blocks, hstatements, hblocks, htest⟩ :=
      exists_of_anyOperation hany
    obtain ⟨fields, -, hqueries⟩ :=
      (queries_of_stage (schemaWith "since") "shopApiRequest").2 _ _ _ (Or.inl rfl) h r hr o ho
    obtain ⟨handled, hhandled, hall⟩ := hqueries _ _ hstatements hblocks
    rw [beq_iff_eq, ← hhandled.parameters, List.length_map] at htest
    exact ⟨m, h, r, hr, o, ho, statements, blocks, handled, fields, hhandled, htest, hall⟩

/-- A shop with a mandatory query parameter that is an object called `query`. -/
def objectShop : Value :=
  shopWith [.record [("in", .str "query"), ("name", .str "query"), ("required", .bool true),
    ("schema", .record [("type", .str "object"), ("properties", .record [
      ("since", .record [("type", .str "string")])])])]]

/-- A filter called `query` is copied as a whole and entered as a text, and a mandatory parameter
called `query` is entered as a collection and stored as one value. -/
theorem not_agrees_on_query :
    (∃ m, Outline.stage id true (schemaWith "query") = .ok m ∧
      ∃ r ∈ m.resources, ∃ o ∈ r.2, ∃ statements blocks,
        requestStatements "shopApiRequest" o = .ok statements ∧
        operationBlocks r.1 o = .ok blocks ∧ .copy .query "query" ∈ statements ∧
        ∃ b ∈ blocks, b.name = "query" ∧ b.type = "string" ∧ b.isCollection = false) ∧
    ∃ staged, OpenApi.stage none defaultNodeColor objectShop = .ok staged ∧
      ∃ r ∈ staged.model.resources, ∃ o ∈ r.2, ∃ statements blocks,
        requestStatements "shopApiRequest" o = .ok statements ∧
        operationBlocks r.1 o = .ok blocks ∧ .copy .query "query" ∉ statements ∧
        .store .query "query" "query" "IDataObject" ∈ statements ∧
        ∃ b ∈ blocks, b.name = "query" ∧ b.isCollection = true := by
  constructor
  · obtain ⟨m, h, hany⟩ := Outcome.exists_ok_of_any
      (by decide +kernel : (Outline.stage id true (schemaWith "query")).toOption.any
        (fun m => anyOperation m.resources fun _ statements blocks => decide
          (.copy .query "query" ∈ statements ∧ ∃ b ∈ blocks,
            b.name = "query" ∧ b.type = "string" ∧ b.isCollection = false)) = true)
    obtain ⟨r, hr, o, ho, statements, blocks, hstatements, hblocks, htest⟩ :=
      exists_of_anyOperation hany
    exact ⟨m, h, r, hr, o, ho, statements, blocks, hstatements, hblocks, of_decide_eq_true htest⟩
  · obtain ⟨staged, h, hany⟩ := Outcome.exists_ok_of_any
      (by decide +kernel : (OpenApi.stage none defaultNodeColor objectShop).toOption.any
        (fun staged => anyOperation staged.model.resources fun _ statements blocks => decide
          (.copy .query "query" ∉ statements ∧
            .store .query "query" "query" "IDataObject" ∈ statements ∧
            ∃ b ∈ blocks, b.name = "query" ∧ b.isCollection = true)) = true)
    obtain ⟨r, hr, o, ho, statements, blocks, hstatements, hblocks, htest⟩ :=
      exists_of_anyOperation hany
    exact ⟨staged, h, r, hr, o, ho, statements, blocks, hstatements, hblocks,
      of_decide_eq_true htest⟩

end NodeForge.Source
