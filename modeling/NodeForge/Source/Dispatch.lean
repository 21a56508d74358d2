import NodeForge.Source.Divider
import NodeForge.Source.Request

/-!
# Dispatch

The code of a node finds out which resource and which operation is asked for by two nested chains
of branches: one over the resources, and inside each of them one over its operations. The first
branch of a chain opens it, the last one is followed by a closing fragment. An operation is found
in its chain by what it is, so equal operations share the place of the first of them.
-/

namespace NodeForge.Source

/-- What a chain of branches is about. -/
inductive Subject where
  | resource
  | operation
deriving Repr, DecidableEq

/-- A fragment of a chain of branches. -/
inductive Fragment where
  /-- A branch: the first of its chain or a further one. -/
  | branch (subject : Subject) (literal : Text) (first : Bool)
  /-- The end of a chain, with an error for what no branch is about or without one. -/
  | close (subject : Subject) (withError : Bool)
deriving Repr, DecidableEq

namespace Fragment

/-- The variable that a chain tests. -/
def variableOf : Subject → Text
  | .resource => "resource"
  | .operation => "operation"

/-- The tabs in front of the lines of a chain. -/
def indentOf : Subject → Text
  | .resource => ""
  | .operation => "\t"

/-- The statement that is reached when no branch of a chain is taken. -/
def unknownLine : Subject → Text
  | .resource => "throw new Error(`Unknown resource: $\x7bresource\x7d`);"
  | .operation => "throw new Error(`Unknown operation: $\x7boperation\x7d`);"

/-- A fragment as lines of code. -/
def lines : Fragment → Lines
  | .branch subject literal first =>
    [indentOf subject ++ (if first then "" else "\x7d else ") ++ "if (" ++ variableOf subject ++
      " === '" ++ literal ++ "') \x7b"]
  | .close subject withError =>
    if withError then
      [indentOf subject ++ "\x7d else \x7b", indentOf subject ++ "\t" ++ unknownLine subject,
        indentOf subject ++ "\x7d"]
    else [indentOf subject ++ "\x7d"]

end Fragment

/-! ### Places in the chains -/

/-- The place of the first operation that is the same as a given one. -/
def operationPlace (operations : List Operation) (o : Operation) : Nat :=
  operations.findIdx fun p => p.same o

/-- The place of a resource. -/
def resourcePlace (names : List Text) (resource : Text) : Nat :=
  names.findIdx fun n => n == resource

/-- The branch for a resource. -/
def resourceBranch (names : List Text) (resource : Text) : Fragment :=
  .branch .resource (literal resource) (resourcePlace names resource == 0)

/-- The branch for an operation. -/
def operationBranch (operations : List Operation) (o : Operation) : Fragment :=
  .branch .operation (literal o.operationId) (operationPlace operations o == 0)

/-- The end of the chain of resources, behind the last one. -/
def resourceEnd? (names : List Text) (withError : Bool) (resource : Text) :
    Option Fragment :=
  if resourcePlace names resource + 1 = names.length then some (.close .resource withError)
  else none

/-- The end of the chain of operations, behind the last one. -/
def operationEnd? (operations : List Operation) (withError : Bool) (o : Operation) :
    Option Fragment :=
  if operationPlace operations o + 1 = operations.length then
    some (.close .operation withError)
  else none

/-! ### The whole dispatch -/

/-- A line moved in by some tabs; an empty line stays empty. -/
def indentLine (tabs : Nat) (line : Text) : Text :=
  if line.isEmpty then line else Text.repeated '\t' tabs ++ line

/-- A text moved in by some tabs. -/
def indented (tabs : Nat) (lines : Lines) : Lines :=
  (lines.flatMap Text.lines).map (indentLine tabs)

/-- The part of the dispatch for one operation. -/
def operationPart (helper resource : Text) (operations : List Operation) (withErrors : Bool)
    (o : Operation) : Except Fault Lines := do
  let request ← requestLines helper o
  return code [
    [[]], indented 1 (operationHeading resource o.operationId o.operationUrl), [[]],
    (operationBranch operations o).lines, indented 2 request,
    (operationEnd? operations withErrors o).toList.flatMap Fragment.lines]

/-- The part of the dispatch for one resource. -/
def resourcePart (helper : Text) (names : List Text) (withErrors : Bool) (resource : Text)
    (operations : List Operation) : Except Fault Lines := do
  let parts ← operations.mapM (operationPart helper resource operations withErrors)
  return code [
    (Divider.ofResource resource).lines, [[]],
    (resourceBranch names resource).lines, parts.flatten, [[]],
    (resourceEnd? names withErrors resource).toList.flatMap Fragment.lines]

/-- The dispatch over all resources and operations, as lines. -/
def dispatchLines (helper : Text) (withErrors : Bool)
    (resources : List (Text × List Operation)) : Except Fault Lines := do
  let names := Entries.keys resources
  return (← resources.mapM fun r => resourcePart helper names withErrors r.1 r.2).flatten

end NodeForge.Source
