import NodeForge.OpenApi.Staging
import NodeForge.Proofs.Naming.Refolding
import NodeForge.Proofs.Source.Collections
import NodeForge.Proofs.Source.Statements

/-!
# The keys of fields in a request

A field that has to be given is stored under the camel case of its name, and a field that may be
left out is in a collection, under its name itself, and the collection is copied as a whole. The
two keys are one exactly if the name is left as it is by camel case (`keys_of_request`). That holds
neither of all names nor of all names that were folded before.
-/

namespace NodeForge.Source

/-- Whether a key is one of those that are entered in a control together. -/
inductive IsGrouped (o : Operation) : Text → Text → Prop
  | body {b : RequestBody} {properties : Fields} {key : Text} {schema : Value}
      (hb : b ∈ o.extraBodies) (hproperties : bodyProperties b = .ok properties)
      (hkey : (.str key, schema) ∈ properties) : IsGrouped o (Naming.camel b.name.text) key
  | fields {g : FieldGroup} {p : Parameter} (hg : g ∈ o.fieldGroups) (hp : p ∈ g.options) :
      IsGrouped o (Naming.camel g.name.text) p.name
  /-- A property of the optional query parameter that is called `query`. -/
  | query {p : Parameter} {properties : Fields} {key : Text} {schema : Value}
      (hp : p ∈ o.queryParameters) (hgroup : isQueryGroup p = true)
      (hproperties : Fields.get "properties" p.schema = .map properties)
      (hkey : (.str key, schema) ∈ properties) : IsGrouped o "query" key

variable {o : Operation} {control key : Text}

/-- A group of fields is copied into a carrier. -/
theorem exists_copy_of_isGrouped {helper : Text} {statements : List Statement}
    (h : requestStatements helper o = .ok statements) (hkey : IsGrouped o control key) :
    .readGroup control control ∈ statements ∧ ∃ carrier, .copy carrier control ∈ statements := by
  have hcarried : ∃ carrier, IsCarriedGroup o control carrier := by
    cases hkey with
    | body hb _ _ => exact ⟨.body, _, List.mem_map_of_mem hb, rfl⟩
    | @fields g p hg _ =>
      by_cases hbody : g.name ∈ bodyGroups o
      · exact ⟨.body, g.name, hbody, rfl⟩
      · exact ⟨.query, Or.inr ⟨g, hg, hbody, rfl⟩⟩
    | query hp hgroup _ _ => exact ⟨.query, Or.inl ⟨_, hp, hgroup, rfl⟩⟩
  obtain ⟨carrier, hcarrier⟩ := hcarried
  exact ⟨(mem_readGroup_iff h).2 ⟨rfl, carrier, hcarrier⟩, carrier, (mem_copy_iff h).2 hcarrier⟩

theorem get_properties_describedSchema (p : Parameter) :
    Fields.get "properties" (describedSchema p) = Fields.get "properties" p.schema := by
  unfold describedSchema
  split
  · split
    · rfl
    · rw [Fields.get, Fields.get?, Fields.put, Entries.lookup_put]
      rfl
  · rfl

/-- The collection of the query object offers its properties. -/
theorem offers_query {resource : Text} {blocks : List FieldBlock}
    (h : operationBlocks resource o = .ok blocks) {p : Parameter} (hp : p ∈ o.queryParameters)
    (hgroup : isQueryGroup p = true) {properties : Fields} {schema : Value}
    (hproperties : Fields.get "properties" p.schema = .map properties)
    (hkey : (.str key, schema) ∈ properties) : Offers blocks "query" key := by
  obtain ⟨parameters, standard, groups, blocksOfGroups, hparameters, -, -, -, rfl⟩ :=
    operationBlocks_eq_ok h
  rw [Operation.queryParameters, List.mem_filter] at hp
  rw [isQueryGroup, Bool.and_eq_true] at hgroup
  have hcollection : isQueryCollection p = true := by
    rw [isQueryCollection, hgroup.1, hp.2, get_properties_describedSchema, hproperties]
    cases properties with
    | nil => cases hkey
    | cons e rest => rfl
  obtain ⟨block, hblock, hp⟩ := Outcome.exists_ok_of_mem hparameters hp.1
  rw [parameterBlock, if_pos hcollection, get_properties_describedSchema, hproperties] at hp
  have hblocks : block ∈ parameters ++ standard.flatten ++ blocksOfGroups ++
      pagingBlocks resource o :=
    List.mem_append_left _ (List.mem_append_left _ (List.mem_append_left _ hblock))
  exact offers_of_ofGroup hp hblocks hkey

/-- A control offers the keys that are entered in it. -/
theorem offers_of_isGrouped {resource : Text} {blocks : List FieldBlock}
    (h : operationBlocks resource o = .ok blocks) (hkey : IsGrouped o control key) :
    Offers blocks control key := by
  obtain ⟨-, -, groups, -, -, -, hgroups, -⟩ := operationBlocks_eq_ok h
  cases hkey with
  | @body b properties _ _ hb hproperties hkey =>
    refine offers_of_holdsKey h hgroups ((holdsKey_groupsOf_iff hgroups).2 (Or.inl ?_))
    exact ⟨b, hb, rfl, properties, hproperties,
      Entries.has_iff_exists.2 ⟨_, hkey, BEq.refl (Scalar.str key)⟩⟩
  | @fields g p hg hp =>
    exact offers_of_holdsKey h hgroups
      ((holdsKey_groupsOf_iff hgroups).2 (Or.inr ⟨g, hg, rfl, p, hp, rfl⟩))
  | query hp hgroup hproperties hkey => exact offers_query h hp hgroup hproperties hkey

/-- **Keys.** Each property of a standard body and each query parameter that has to be given is
stored under the camel case of its name, and nothing else is. What may be left out is offered under
its own name, in a control that is copied as a whole. A name is its own camel case exactly if its
capitals begin its words; the name of a field, which was folded before, need not be. -/
theorem keys_of_request {helper resource : Text} {statements : List Statement}
    {blocks : List FieldBlock} (hstatements : requestStatements helper o = .ok statements)
    (hblocks : operationBlocks resource o = .ok blocks) :
    (∀ carrier key name, (∃ type, .store carrier key name type ∈ statements) ↔
      key = Naming.camel name ∧
        (carrier = .query ∧ (∃ p ∈ o.queryParameters, isQueryGroup p = false ∧ p.name = name) ∨
          carrier = .body ∧ ∃ schema, IsStandardField o (.str name) schema)) ∧
    (∀ p ∈ o.queryParameters, p.required = true → isQueryGroup p = false) ∧
    (∀ control key, IsGrouped o control key → Offers blocks control key ∧
      .readGroup control control ∈ statements ∧ ∃ carrier, .copy carrier control ∈ statements) ∧
    (∀ name, Naming.camel name = name ↔ (∀ s ∈ name, Naming.isWordSign s = true) ∧
      Text.firstMeets Letter.isAsciiCapital name = false ∧ Naming.capitalsBegin name = true) ∧
    ∀ name, Naming.camel (Naming.field name) = Naming.field name ↔
      (Naming.words name = [] → name = []) ∧
        (Naming.laterWords name).IsChain Naming.StayApart := by
  refine ⟨fun _ _ _ => exists_store_iff hstatements, fun p _ hrequired => ?_,
    fun control key hkey => ⟨offers_of_isGrouped hblocks hkey,
      exists_copy_of_isGrouped hstatements hkey⟩,
    fun _ => Naming.camel_eq_self_iff, fun _ => Naming.camel_field_eq_iff⟩
  rw [isQueryGroup, hrequired, Bool.not_true, Bool.and_false]

theorem keys_ordersOperation : ∃ statements blocks,
    requestStatements "shopApiRequest" ordersOperation = .ok statements ∧
    operationBlocks "order" ordersOperation = .ok blocks ∧
    (∃ type, .store .body "itemName" "item_name" type ∈ statements) ∧
    Offers blocks "additionalFields" "sort" := by
  obtain ⟨statements, hstatements⟩ := Outcome.isOk_iff.1
    (by decide +kernel : (requestStatements "shopApiRequest" ordersOperation).isOk = true)
  obtain ⟨blocks, hblocks⟩ := Outcome.isOk_iff.1
    (by decide +kernel : (operationBlocks "order" ordersOperation).isOk = true)
  obtain ⟨hstores, -, hgrouped, -, -⟩ := keys_of_request hstatements hblocks
  have hname : Text.ofString "itemName" = Naming.camel "item_name" := by decide
  have hfield : ∃ schema, IsStandardField ordersOperation (.str "item_name") schema :=
    ⟨_, _, List.mem_cons_self, _, rfl, List.mem_cons_self⟩
  obtain ⟨g, hg, hcontrol, p, hp, hsort⟩ : ∃ g ∈ ordersOperation.fieldGroups,
      Naming.camel g.name.text = "additionalFields" ∧ ∃ p ∈ g.options, p.name = "sort" :=
    ⟨_, List.mem_cons_self, by decide, _, List.mem_cons_self, rfl⟩
  have hkey : IsGrouped ordersOperation "additionalFields" "sort" := by
    rw [← hcontrol, ← hsort]
    exact .fields hg hp
  refine ⟨statements, blocks, hstatements, hblocks, ?_, (hgrouped _ _ hkey).1⟩
  exact (hstores .body "itemName" "item_name").2 ⟨hname, Or.inr ⟨rfl, hfield⟩⟩

/-- A shop with a mandatory query field that no camel case is left of, and a mandatory body field
whose words run together. -/
def letterShop : Value :=
  .record [("openapi", .str "3.0.0"), ("info", .record [("title", .str "Shop"),
    ("version", .str "1")]), ("paths", .record [
    ("/orders", .record [("post", .record [("tags", .list [.str "order"]),
      ("parameters", .list [.record [("in", .str "query"), ("name", .str "名前"),
        ("required", .bool true), ("schema", .record [("type", .str "string")])]]),
      ("requestBody", .record [("content", .record [("application/json", .record [("schema",
        .record [("type", .str "object"),
          ("properties", .record [("a b c", .record [("type", .str "string")])]),
          ("required", .list [.str "a b c"])])])])]),
      ("responses", .record [])])])])]

/-- The statements of its only operation. -/
def letterStatements : List Statement :=
  [.begin .query, .store .query "" "名前" "string", .begin .body,
    .store .body "aBc" "aBC" "string", .endpoint "/orders",
    .call ⟨"shopApiRequest", "POST", true, true, false⟩]

/-- Fields are stored under other keys than their names, also where these were folded before. -/
theorem stores_letterShop : ∃ staged,
    OpenApi.stage none defaultNodeColor letterShop = .ok staged ∧
    ∃ r ∈ staged.model.resources, ∃ o ∈ r.2,
      requestStatements "shopApiRequest" o = .ok letterStatements ∧
      .store .query "" "名前" "string" ∈ letterStatements ∧
      Naming.field "a b c" = "aBC" ∧ .store .body "aBc" "aBC" "string" ∈ letterStatements ∧
      Naming.camel (Naming.field "a b c") ≠ Naming.field "a b c" := by
  have hrun : ((OpenApi.stage none defaultNodeColor letterShop).toOption.any fun staged =>
      staged.model.resources.any fun r => r.2.any fun o =>
        (requestStatements "shopApiRequest" o).toOption.any fun s => s == letterStatements) =
      true := by
    decide +kernel
  obtain ⟨staged, hstaged, hrun⟩ := Outcome.exists_ok_of_any hrun
  obtain ⟨r, hr, hrun⟩ := List.any_eq_true.1 hrun
  obtain ⟨o, ho, hrun⟩ := List.any_eq_true.1 hrun
  obtain ⟨statements, hstatements, heq⟩ := Outcome.exists_ok_of_any hrun
  rw [beq_iff_eq] at heq
  exact ⟨staged, hstaged, r, hr, o, ho, heq ▸ hstatements, by decide, by decide, by decide,
    by decide⟩

end NodeForge.Source
