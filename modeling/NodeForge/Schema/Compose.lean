import NodeForge.Schema.Merge

/-!
# Composed schemas

`compose` turns a schema with `allOf`, `oneOf` or `anyOf` into one plain schema. The members of
`allOf` are merged in their order, of the alternatives only the first counts, and the keys beside
them are written over the result. Properties, items and additional properties are composed first.

A schema is gone through entry by entry: `Parts` collects what each entry contributes, and
`Parts.assemble` puts the contributions together.
-/

namespace NodeForge.Schema

/-- The keys under which a schema holds other schemas. -/
inductive Keyword where
  | allOf
  | oneOf
  | anyOf
  | properties
  | items
  | additionalProperties
deriving Repr, DecidableEq

/-- The key itself. -/
def Keyword.name : Keyword → Text
  | .allOf => "allOf"
  | .oneOf => "oneOf"
  | .anyOf => "anyOf"
  | .properties => "properties"
  | .items => "items"
  | .additionalProperties => "additionalProperties"

/-- All such keys. -/
def Keyword.allKeywords : List Keyword :=
  [.allOf, .oneOf, .anyOf, .properties, .items, .additionalProperties]

/-- The keyword that a key is, if it is one. -/
def Keyword.ofKey? (key : Scalar) : Option Keyword :=
  Keyword.allKeywords.find? fun word => key == .str word.name

/-- What the entries of a schema contribute. -/
structure Parts where
  /-- The entries other than combinators, composed. -/
  plain : Except Fault Fields
  /-- The members of `allOf` merged into one schema, if it is a list. -/
  allOf : Option (Except Fault Value)
  /-- The first alternative of `oneOf`, if it is a list with one. -/
  oneOf : Option (Except Fault Value)
  /-- The first alternative of `anyOf`, if it is a list with one. -/
  anyOf : Option (Except Fault Value)

/-- The parts of a schema without entries. -/
def Parts.empty : Parts := ⟨.ok [], none, none, none⟩

/-- Puts an entry with a composed value in front of the plain entries. -/
def Parts.withPlain (key : Scalar) (value : Except Fault Value) (parts : Parts) : Parts :=
  { parts with
    plain := do
      let v ← value
      let rest ← parts.plain
      return (key, v) :: rest }

/-- Merges schemas one after the other, beginning with `base`. -/
def mergeAll (base : Value) : List (Except Fault Value) → Except Fault Value
  | [] => .ok base
  | schema :: rest => do mergeAll (← merge base (← schema)) rest

/-- Writes a schema over another one, where there is another one. -/
def writeOver (base : Option (Except Fault Value)) (schema : Value) : Except Fault Value :=
  match base with
  | none => .ok schema
  | some base => do merge (← base) schema

/-- Puts the parts of a schema together: the alternative lowest, over it the merged members, and
over both the plain entries. -/
def Parts.assemble (parts : Parts) : Except Fault Value := do
  let own ← parts.plain
  let joined ← writeOver parts.allOf (.map own)
  writeOver (parts.oneOf.orElse fun _ => parts.anyOf) joined

mutual

/-- One plain schema for a composed one; what is no mapping stays. -/
def compose : Value → Except Fault Value
  | .map es => (partsOf es).assemble
  | v => .ok v

/-- Composes each schema of a list. -/
def composeEach : List Value → List (Except Fault Value)
  | [] => []
  | v :: rest => compose v :: composeEach rest

/-- Composes the schema under each key. -/
def composeFields : List (Scalar × Value) → Except Fault Fields
  | [] => .ok []
  | (k, v) :: rest => do
    let v ← compose v
    let rest ← composeFields rest
    return (k, v) :: rest

/-- What the entries of a schema contribute. -/
def partsOf : List (Scalar × Value) → Parts
  | [] => .empty
  | (k, v) :: rest =>
    let parts := partsOf rest
    match Keyword.ofKey? k, v with
    | some .allOf, .list members =>
      { parts with allOf := some (mergeAll (.map []) (composeEach members)) }
    | some .oneOf, .list (first :: _) => { parts with oneOf := some (compose first) }
    | some .anyOf, .list (first :: _) => { parts with anyOf := some (compose first) }
    | some .allOf, _ | some .oneOf, _ | some .anyOf, _ => parts
    | some .properties, .map es => parts.withPlain k (Value.map <$> composeFields es)
    | some .items, .list xs => parts.withPlain k (Value.list <$> (composeEach xs).mapM id)
    | some .items, .map es => parts.withPlain k (partsOf es).assemble
    | some .additionalProperties, .map es => parts.withPlain k (partsOf es).assemble
    | _, v => parts.withPlain k (.ok v)

end

end NodeForge.Schema
