import NodeForge.Proofs.OpenApi.Rows

/-!
# Staging keeps account of the operations

What a document mentions and what its model holds are the same operations: none is lost, none comes
up twice, and none is given the id, the parameters or the bodies of another one. `Accounts` says
this, and `accounts_of_stage` that it holds of every document that can be staged.

The contexts are grouped by resource, get their ids in the order of the document and are sorted
after that. The row of a mention carries its parts through all three steps.
-/

namespace NodeForge

/-- The operations of a model as resource, endpoint and method. -/
def NodeModel.triples (m : NodeModel) : List (Text × Scalar × Text) :=
  m.resources.flatMap fun e => e.2.map fun o => (e.1, .str o.endpoint, o.requestMethod)

namespace OpenApi

/-- What a mention should be counted as: its resources with its path and method. -/
def Mention.triples (m : Mention) : List (Text × Scalar × Text) :=
  m.resources.map fun resource => (resource, m.path, Text.upper m.method)

/-- Whether a model holds exactly the operations that a document mentions. -/
structure Accounts (document : Value) (model : NodeModel) : Prop where
  /-- The resources of each mention can be read off the document. -/
  reads : ∀ m ∈ mentions document, m.Reads
  /-- The operations are those that are mentioned, each as often. -/
  triples : model.triples.Perm ((mentions document).flatMap Mention.triples)
  /-- The resources stand in the order of their codes, each once. -/
  increasing : (model.resources.map Prod.fst).Pairwise Text.Precedes
  /-- The resources are those of the mentions. -/
  exactly : ∀ resource, resource ∈ model.resources.map Prod.fst ↔
    ∃ m ∈ mentions document, resource ∈ m.resources
  /-- Every resource has an operation. -/
  inhabited : ∀ e ∈ model.resources, e.2 ≠ []
  /-- The operations on a resource are made one by one from the mentions that belong to it, each
  under an id that was assigned to its own candidate, in the order of the document. -/
  paired : ∀ e ∈ model.resources, ∃ rows : List Row,
    rows.map Row.mention = mentionsOn e.1 document ∧
      rows.map Row.id = assignIds (rows.map Row.candidate) ∧ (∀ row ∈ rows, row.Fits e.1) ∧
      e.2.Perm (rows.map Row.operation)

/-! ### Counting -/

variable {given : Option Text} {nodeColor : Text} {document : Value} {staged : Staged}

theorem sortedById_perm (ops : List Operation) : (Operation.sortedById ops).Perm ops :=
  List.mergeSort_perm ..

/-- The operations on one resource count as the mentions that belong to it. -/
theorem triples_of_resource (h : stage given nodeColor document = .ok staged)
    {e : Text × List Operation} (he : e ∈ staged.model.resources) :
    (e.2.map fun o => (e.1, Scalar.str o.endpoint, o.requestMethod)).Perm
      ((mentionsOn e.1 document).map fun m => (e.1, m.path, Text.upper m.method)) := by
  obtain ⟨rows, hmentions, -, hfits, hops⟩ := exists_rows h he
  have heq : (rows.map Row.operation).map (fun o => (e.1, Scalar.str o.endpoint, o.requestMethod)) =
      (mentionsOn e.1 document).map fun m => (e.1, m.path, Text.upper m.method) := by
    rw [← hmentions, List.map_map, List.map_map]
    refine List.map_congr_left fun row hrow => ?_
    have hmakes := (hfits row hrow).makes
    show (e.1, Scalar.str row.operation.endpoint, row.operation.requestMethod) =
      (e.1, row.mention.path, Text.upper row.mention.method)
    rw [hmakes.endpoint, hmakes.requestMethod]
  rw [← heq, hops]
  exact (sortedById_perm _).map _

/-- The mentions, taken resource by resource, are counted as they stand in the document. -/
theorem flatMap_mentionsOn_perm (document : Value) :
    ((mentionedResources document).flatMap fun resource =>
        (mentionsOn resource document).map fun m => (resource, m.path, Text.upper m.method)).Perm
      ((mentions document).flatMap Mention.triples) := by
  let found := (mentions document).flatMap fun m => m.resources.map m.context
  let triple (c : Context) := (c.resource, c.endpoint, Text.upper c.method)
  have hnodup : (mentionedResources document).Nodup :=
    (List.mergeSort_perm ..).nodup_iff.2 (Entries.nodup_distinct _)
  have hcovered : ∀ c ∈ found, c.resource ∈ mentionedResources document := by
    intro c hc
    obtain ⟨m, hm, hc⟩ := List.mem_flatMap.1 hc
    obtain ⟨resource, hresource, rfl⟩ := List.mem_map.1 hc
    exact mem_mentionedResources.2 ⟨m, hm, hresource⟩
  have hgrouped := (Entries.flatMap_filter_perm hnodup hcovered).map triple
  rw [List.map_flatMap] at hgrouped
  have hall : found.map triple = (mentions document).flatMap Mention.triples := by
    rw [List.map_flatMap]
    refine List.flatMap_congr fun m _ => ?_
    rw [List.map_map]
    rfl
  have hone (resource : Text) : (found.filter fun c => c.resource == resource).map triple =
      (mentionsOn resource document).map fun m => (resource, m.path, Text.upper m.method) := by
    rw [filter_contexts, List.map_map]
    rfl
  rw [hall] at hgrouped
  simpa only [hone] using hgrouped

theorem triples_perm (h : stage given nodeColor document = .ok staged) :
    staged.model.triples.Perm ((mentions document).flatMap Mention.triples) := by
  -- sorting happens within a resource, grouping across the resources
  have hone := List.Perm.flatMap_left staged.model.resources
    fun e he => triples_of_resource h he
  refine (hone.trans ?_).trans (flatMap_mentionsOn_perm document)
  rw [← map_fst_resources h, List.flatMap_map]

/-! ### Resources -/

theorem ne_nil_of_mem_resources (h : stage given nodeColor document = .ok staged)
    {e : Text × List Operation} (he : e ∈ staged.model.resources) : e.2 ≠ [] := by
  obtain ⟨rows, hmentions, -, -, hops⟩ := exists_rows h he
  have hname : e.1 ∈ mentionedResources document := by
    rw [← map_fst_resources h]
    exact List.mem_map_of_mem he
  -- a resource is named by a mention, and this mention has a row
  obtain ⟨m, hm, hresource⟩ := mem_mentionedResources.1 hname
  have hmem : m ∈ rows.map Row.mention := by
    rw [hmentions]
    exact List.mem_filter.2 ⟨hm, List.contains_iff_mem.2 hresource⟩
  obtain ⟨row, hrow, -⟩ := List.mem_map.1 hmem
  have hop : row.operation ∈ e.2 := by
    rw [hops]
    exact (sortedById_perm _).mem_iff.2 (List.mem_map_of_mem hrow)
  exact List.ne_nil_of_mem hop

/-- **Staging keeps account.** The model of a staged document holds exactly the operations that the
document mentions, on exactly their resources, and each of them has the parts of its own entry and
an id of its own candidate. -/
theorem accounts_of_stage (h : stage given nodeColor document = .ok staged) :
    Accounts document staged.model where
  reads := reads_of_stage h
  triples := triples_perm h
  increasing := by
    rw [map_fst_resources h]
    exact pairwise_mentionedResources document
  exactly resource := by
    rw [map_fst_resources h]
    exact mem_mentionedResources
  inhabited _ he := ne_nil_of_mem_resources h he
  paired e he := by
    obtain ⟨rows, hmentions, hids, hfits, hops⟩ := exists_rows h he
    refine ⟨rows, hmentions, hids, hfits, ?_⟩
    rw [hops]
    exact sortedById_perm _

/-- A shop with an operation on two resources, a method in mixed case and tags that fold. -/
def petShop : Value :=
  .record [("paths", .record [
    ("/pets", .record [
      ("GET", .record [("tags", .list [.str "Pets", .str " pet"]),
        ("operationId", .str "listPets")]),
      ("post", .record [("tags", .list [.str "pet", .str "orders"]),
        ("operationId", .str "addPet")])]),
    ("/pets/\x7bid\x7d", .record [
      ("get", .record [("tags", .list [.str "pets"])]),
      ("Delete", .record [("tags", .list [.str "OAuth"])])])])]

theorem accounts_petShop : ∃ staged, stage none defaultNodeColor petShop = .ok staged ∧
    Accounts petShop staged.model := by
  obtain ⟨staged, h⟩ := isStageable_iff.1
    (by decide +kernel : isStageable none defaultNodeColor petShop = true)
  exact ⟨staged, h, accounts_of_stage h⟩

end OpenApi

end NodeForge
