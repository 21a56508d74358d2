import NodeForge.Failure
import NodeForge.Node.Basic

/-!
# Looking an operation up

An operation is found by its resource and its id. Where a resource has several operations with one
id, the first is found.
-/

namespace NodeForge.NodeModel

/-- The operations on a resource; a resource that is not there has none. -/
def operations (m : NodeModel) (resource : Text) : List Operation :=
  (m.resources.lookup resource).getD []

/-- The operation on a resource with a given id. -/
def operation (m : NodeModel) (resource id : Text) : Except Failure Operation :=
  match (m.operations resource).find? fun o => o.operationId == id with
  | some o => .ok o
  | none => .error (.missingOperation resource id)

/-- The number of operations on all resources. -/
def operationCount (m : NodeModel) : Nat := (m.resources.flatMap Prod.snd).length

theorem operation_eq_ok_iff {m : NodeModel} {resource id : Text} {o : Operation} :
    m.operation resource id = .ok o ↔
      (m.operations resource).find? (fun o => o.operationId == id) = some o := by
  cases h : (m.operations resource).find? fun o => o.operationId == id <;> simp [operation, h]

end NodeForge.NodeModel
