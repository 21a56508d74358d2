import NodeForge.Naming.OperationId
import NodeForge.Node.Wire
import NodeForge.Yaml.Writer

/-!
# The overview of a node model

A short list of the operations on each resource. Ids outside the common vocabulary are marked.
-/

namespace NodeForge.Overview

/-- The mark of an id outside the common vocabulary. -/
def irregularNote : Text := "operation id outside the canonical vocabulary"

/-- The entry of an operation: what is told about it, in texts. -/
def entryOf (o : Operation) : List (Text × Text) :=
  let told : List (Text × Text) :=
    [("nodeOperation", o.operationId), ("requestMethod", o.requestMethod),
      ("endpoint", o.endpoint)]
  let mark : List (Text × Text) := [("IRREGULAR", irregularNote)]
  if canonicalIds.contains o.operationId then told else told ++ mark

/-- The entries of the operations on each resource. -/
def overview (m : NodeModel) : List (Text × List (List (Text × Text))) :=
  m.resources.map fun r => (r.1, r.2.map entryOf)

/-- The overview as a document. -/
def dump (m : NodeModel) : Value :=
  .record <| (overview m).map fun r =>
    (r.1, .list (r.2.map fun entry => .record (entry.map fun e => (e.1, .str e.2))))

/-- The overview as a YAML text. -/
def text (m : NodeModel) : Text :=
  Yaml.write <| .map <| (overview m).map fun r =>
    (r.1, .list (r.2.map fun entry => .map (entry.map fun e => (e.1, .text e.2))))

end NodeForge.Overview
