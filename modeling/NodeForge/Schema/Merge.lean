import NodeForge.Document.Access
import NodeForge.Document.Copy

/-!
# Merging schemas

Schemas that are composed of parts are merged key by key: mappings under the same key are merged
in turn, lists are put one after the other, and of all other values the later one counts. Keys
keep the place at which they were first written.

A merged schema shares nothing with the schemas that it is made of: what is taken over is made anew,
and once more at each key where mappings are merged in turn.
-/

namespace NodeForge.Schema

mutual

/-- Merges the entries of the second mapping into the first, both of them made anew already. -/
def mergeFields (base : Fields) : List (Scalar × Value) → Fields
  | [] => base
  | (k, v) :: rest =>
    mergeFields
      (Entries.put k
        (match base.lookup k with
          | some current => mergeOver current v
          | none => v) base) rest

/-- What the second value makes of the first one under the same key. -/
def mergeOver (current : Value) : Value → Value
  | .map es =>
    match current with
    | .map bs => .map (mergeFields (Value.copiedFields bs) es)
    | _ => .map es
  | .list ys =>
    match current with
    | .list xs => .list (xs ++ ys)
    | _ => .list ys
  | v => v

end

/-- Merges two values that should be mappings. What is written over the first one has to be a
mapping; the first one has to be a mapping as soon as there is something to write. -/
def merge (base extra : Value) : Except Fault Value := do
  match ← extra.fields with
  | [] => return base.copied
  | es => return .map (mergeFields (Value.copiedFields (← base.fields)) (Value.copiedFields es))

end NodeForge.Schema
