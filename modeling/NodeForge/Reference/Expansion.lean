import NodeForge.Reference.Pointer

/-!
# Expanding references

`expand` puts in place of every reference the node that it names, expanded in turn, with the keys
beside the reference written over it. References are always looked up in the document as it was
given. A reference that is met again inside its own expansion is not followed further: the node it
names is put there as it is.

An expansion is given by what it makes of a reference, so the walk over a node is a plain
recursion on the node (`expandNode`), and the depth of references is a recursion on their number:
along a way no reference is followed twice, and there are no more than the document holds.
-/

namespace NodeForge.Reference

/-- The key of a reference. -/
def refKey : Scalar := .str "$ref"

/-- The reference that a mapping is, if it is one. -/
def ofFields? (fields : Fields) : Option Text :=
  match fields.lookup refKey with
  | some (.str reference) => some reference
  | _ => none

mutual

/-- The references in a document, as often as they occur. -/
def occurring : Value → List Text
  | .list xs => occurringItems xs
  | .map es => (ofFields? es).toList ++ occurringFields es
  | _ => []

/-- The references in the members of a list. -/
def occurringItems : List Value → List Text
  | [] => []
  | x :: xs => occurring x ++ occurringItems xs

/-- The references in the values of a mapping. -/
def occurringFields : List (Scalar × Value) → List Text
  | [] => []
  | (_, v) :: es => occurring v ++ occurringFields es

end

/-- The expansion of a reference with the expanded keys beside it written over it, where it is a
mapping. -/
def withSiblings (siblings : Except Failure Fields) : Value → Except Failure Value
  | .map es => do return .map (Entries.putAll es (← siblings))
  | v => .ok v

mutual

/-- Expands a node, where `follow` expands the references in it. Pairs stay as they are, and in a
container that holds itself there is no end of nodes. -/
def expandNode (follow : Text → Except Failure Value) : Value → Except Failure Value
  | .list xs => Value.list <$> expandItems follow xs
  | .map es =>
    match ofFields? es with
    | some reference => do withSiblings (expandSiblings follow es) (← follow reference)
    | none => Value.map <$> expandFields follow es
  | .again _ _ => .error (.fault .endless)
  | v => .ok v

/-- Expands the members of a list. -/
def expandItems (follow : Text → Except Failure Value) :
    List Value → Except Failure (List Value)
  | [] => .ok []
  | x :: xs => do
    let x ← expandNode follow x
    let xs ← expandItems follow xs
    return x :: xs

/-- Expands the values of a mapping. -/
def expandFields (follow : Text → Except Failure Value) :
    List (Scalar × Value) → Except Failure Fields
  | [] => .ok []
  | (k, v) :: es => do
    let v ← expandNode follow v
    let es ← expandFields follow es
    return (k, v) :: es

/-- Expands the values beside a reference. -/
def expandSiblings (follow : Text → Except Failure Value) :
    List (Scalar × Value) → Except Failure Fields
  | [] => .ok []
  | (k, v) :: es =>
    if k == refKey then expandSiblings follow es
    else do
      let v ← expandNode follow v
      let es ← expandSiblings follow es
      return (k, v) :: es

end

section

variable (enter : Value → Value) (document : Value)

/-- The node that a reference names, a copy of which is put in place without being expanded; it has
to be a mapping, and a reference in it is left out. -/
def inPlace (reference : Text) : Except Failure Value := do
  let fields ← (← target enter document reference).copied.fields
  return .map (Entries.without refKey fields)

/-- Expands a node inside the expansion of the `active` references, where at most `depth` further
ones can be followed. -/
def expandWithin : (depth : Nat) → (active : List Text) → Value → Except Failure Value
  | 0, _ => expandNode (inPlace enter document)
  | depth + 1, active => expandNode fun reference =>
    if active.contains reference then inPlace enter document reference
    else do
      expandWithin depth (reference :: active) (← target enter document reference)

/-- The document with its references expanded, of which there are no more than `bound`; `enter`
prepares a node for the parts of it that are gone into. -/
def expandWith (bound : Nat) : Except Failure Value := expandWithin enter document bound [] document

end

/-- The document with its references expanded, where no container holds itself. -/
def expand (document : Value) : Except Failure Value :=
  expandWith id document (Entries.distinct (occurring document)).length

end NodeForge.Reference
