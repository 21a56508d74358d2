import NodeForge.Naming.Words

/-!
# When a field is shown

A field of a node is shown for one operation on one resource. The condition names both by the
literals that the dispatch of the node tests.
-/

namespace NodeForge.Source

/-- Lines of code. -/
abbrev Lines := List Text

/-- Parts of code one after the other. -/
def code (parts : List Lines) : Lines := parts.flatten

/-- The operation on a resource for which a field is shown; `unlessAll` hides it where all results
are asked for. -/
structure Condition where
  resource : Text
  operation : Text
  unlessAll : Bool
deriving Repr, DecidableEq

/-- The literal that stands for a resource or an operation in generated code. -/
def literal (name : Text) : Text := Naming.camel name

/-- The condition that the fields of an operation have in common. -/
def Condition.of (resource operationId : Text) : Condition :=
  ⟨literal resource, literal operationId, false⟩

/-- A condition as lines of code. -/
def Condition.lines (c : Condition) : Lines :=
  code [
    ["displayOptions: \x7b", "show: \x7b", "resource: ['" ++ c.resource ++ "'],",
      "operation: ['" ++ c.operation ++ "'],"],
    if c.unlessAll then ["returnAll: [false],"] else [],
    ["\x7d,", "\x7d,"]]

end NodeForge.Source
