import NodeForge.Node.Lookup
import NodeForge.Proofs.Naming.Candidate
import NodeForge.Proofs.OpenApi.Rows

/-!
# Every staged operation can be looked up

A model is in order when its resources and, on each resource, the ids of its operations increase
strictly and no id is empty (`NodeModel.InOrder`). In such a model the look-up by resource and id
goes both ways: it finds each operation under its own id, and nothing under any other one. A staged
document is in order (`inOrder_of_stage`).
-/

namespace NodeForge

/-! ### Models in order -/

namespace NodeModel

/-- Whether the resources of a model, and the ids on each of them, increase strictly, and no id is
empty. -/
structure InOrder (m : NodeModel) : Prop where
  resources : (m.resources.map Prod.fst).Pairwise Text.Precedes
  ids : ∀ e ∈ m.resources, e.2.Pairwise fun a b => a.operationId.Precedes b.operationId
  named : ∀ e ∈ m.resources, ∀ o ∈ e.2, o.operationId ≠ []

variable {m : NodeModel}

theorem operations_of_mem (hm : m.InOrder) {e : Text × List Operation} (he : e ∈ m.resources) :
    m.operations e.1 = e.2 := by
  have hkeys : (Entries.keys m.resources).Nodup := hm.resources.imp Text.Precedes.ne
  rw [operations, Entries.lookup_eq_some_of_mem hkeys he, Option.getD_some]

/-- Each operation is found under its own id. -/
theorem operation_of_mem (hm : m.InOrder) {e : Text × List Operation} (he : e ∈ m.resources)
    {o : Operation} (ho : o ∈ e.2) : m.operation e.1 o.operationId = .ok o := by
  have hids : e.2.Pairwise fun a b => a.operationId ≠ b.operationId :=
    (hm.ids e he).imp Text.Precedes.ne
  rw [operation_eq_ok_iff, operations_of_mem hm he]
  exact Entries.find?_eq_some_of_mem hids ho

/-- What no operation goes by is not found. -/
theorem operation_of_not_mem {resource id : Text}
    (h : ∀ e ∈ m.resources, e.1 = resource → ∀ o ∈ e.2, o.operationId ≠ id) :
    m.operation resource id = .error (.missingOperation resource id) := by
  have hnone : (m.operations resource).find? (fun o => o.operationId == id) = none := by
    refine List.find?_eq_none.2 fun o ho heq => ?_
    rw [operations] at ho
    cases hlookup : m.resources.lookup resource with
    | none => simp [hlookup] at ho
    | some ops =>
      rw [hlookup, Option.getD_some] at ho
      obtain ⟨before, behind, hsplit, -⟩ := List.lookup_eq_some_iff.1 hlookup
      have hmem : (resource, ops) ∈ m.resources := by
        rw [hsplit]
        exact List.mem_append_right _ List.mem_cons_self
      exact h _ hmem rfl o ho (eq_of_beq heq)
  rw [operation, hnone]

end NodeModel

/-! ### Staged models -/

namespace OpenApi

variable {given : Option Text} {nodeColor : Text} {document : Value} {staged : Staged}

theorem map_operationId {resource : Text} {rows : List Row}
    (h : ∀ row ∈ rows, row.Fits resource) :
    (rows.map Row.operation).map Operation.operationId = rows.map Row.id := by
  rw [List.map_map]
  exact List.map_congr_left fun row hrow => (h row hrow).makes.operationId

theorem method_ne_nil {m : Mention} (h : m ∈ mentions document) : m.method ≠ [] := by
  have hall : ∀ method ∈ httpMethods, method ≠ [] := by decide
  exact hall m.method (mem_httpMethods_of_mem_mentions h)

theorem id_ne_nil {row : Row} {resource : Text} (hrow : row.Fits resource)
    (hm : row.mention ∈ mentions document) : row.id ≠ [] :=
  Candidate.ne_nil_of_allows (isNamed_derive (method_ne_nil hm) hrow.candidate) hrow.allows

/-- A staged model is in order. -/
theorem inOrder_of_stage (h : stage given nodeColor document = .ok staged) :
    staged.model.InOrder where
  resources := by
    rw [map_fst_resources h]
    exact pairwise_mentionedResources document
  ids e he := by
    obtain ⟨rows, -, hids, hfits, hops⟩ := exists_rows h he
    have hnodup : ((rows.map Row.operation).map Operation.operationId).Nodup := by
      rw [map_operationId hfits, hids]
      exact nodup_assignIds _
    rw [hops]
    exact Text.pairwise_mergeSort_of_nodup hnodup
  named e he o ho := by
    obtain ⟨row, rfl, hfits, hm, -⟩ := exists_row_of_mem h he ho
    rw [hfits.makes.operationId]
    exact id_ne_nil hfits hm

/-- **Looking up is faithful.** On each resource of a staged document the ids are not empty and
increase strictly. The look-up finds each operation under its resource and id, and under any other
resource and id it says that the operation is missing. -/
theorem lookup_of_stage (h : stage given nodeColor document = .ok staged) :
    (∀ e ∈ staged.model.resources,
      (∀ o ∈ e.2, o.operationId ≠ []) ∧
      (e.2.Pairwise fun a b => a.operationId.Precedes b.operationId) ∧
      ∀ o ∈ e.2, staged.model.operation e.1 o.operationId = .ok o) ∧
    ∀ resource id,
      (∀ e ∈ staged.model.resources, e.1 = resource → ∀ o ∈ e.2, o.operationId ≠ id) →
      staged.model.operation resource id = .error (.missingOperation resource id) := by
  have horder := inOrder_of_stage h
  constructor
  · intro e he
    exact ⟨horder.named e he, horder.ids e he, fun o ho => NodeModel.operation_of_mem horder he ho⟩
  · intro resource id hnone
    exact NodeModel.operation_of_not_mem hnone

/-- Three operations that want two ids, one of which looks like a number behind the other. -/
def crowdedShop : Value :=
  .record [("paths", .record [
    ("/pets", .record [
      ("get", .record [("operationId", .str "find")]),
      ("put", .record [("operationId", .str "find")]),
      ("post", .record [("operationId", .str "find2")])])])]

theorem lookup_crowdedShop : ∃ staged, stage none defaultNodeColor crowdedShop = .ok staged ∧
    ∀ e ∈ staged.model.resources, ∀ o ∈ e.2,
      staged.model.operation e.1 o.operationId = .ok o := by
  obtain ⟨staged, h⟩ := isStageable_iff.1
    (by decide +kernel : isStageable none defaultNodeColor crowdedShop = true)
  exact ⟨staged, h, fun e he => ((lookup_of_stage h).1 e he).2.2⟩

end OpenApi

end NodeForge
