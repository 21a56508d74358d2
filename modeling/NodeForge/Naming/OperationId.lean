import NodeForge.Document.Access
import NodeForge.Naming.Plural
import NodeForge.Warning

/-!
# Operation ids

Descriptions name their operations in many dialects. `Candidate.derive` maps a name onto a small
vocabulary (`get`, `getAll`, `create`, `update`, `delete`), together with a variant that keeps
what the name says beyond the verb and the resource. `assignIds` then gives every operation of a
resource an id of its own: the canonical id where only one operation has it, else the variant, and
where two operations still want the same id the later ones are numbered from 2.
-/

namespace NodeForge

/-- The ids of the common vocabulary. -/
def canonicalIds : List Text := ["create", "delete", "get", "getAll", "update"]

/-- The ids that an operation may go by. -/
structure Candidate where
  canonical : Text
  variant : Option Text
deriving Repr, DecidableEq

namespace Naming

/-! ### Taking the resource out of a name -/

/-- Removes `token` wherever no small letter follows it, after the next `skip` signs have been
passed over. -/
def removeFrom (token : Text) : Nat → Text → Text
  | _, [] => []
  | skip + 1, _ :: cs => removeFrom token skip cs
  | 0, c :: cs =>
    if token.isPrefixOf (c :: cs) && !startsSmall ((c :: cs).drop token.length) then
      removeFrom token (token.length - 1) cs
    else c :: removeFrom token 0 cs

/-- Removes every occurrence of a non-empty `token` that no small letter follows. -/
def removeWord (token text : Text) : Text := removeFrom token 0 text

/-- Removes `token` from the start of a text, unless a small letter follows it. -/
def removeLeading (token text : Text) : Text :=
  if token.isPrefixOf text && !startsSmall (text.drop token.length) then text.drop token.length
  else text

/-- Removes the name of the resource, singular or plural, from an identifier: capitalized
everywhere, in camel case at the start only. -/
def withoutResource (resource text : Text) : Text :=
  let name := words resource
  let pascal := (name.map capitalize).flatten
  let camel := camelOf name
  if pascal.isEmpty then text
  else
    let text := (pluralForms pascal ++ [pascal]).foldl (fun t token => removeWord token t) text
    (pluralForms camel ++ [camel]).foldl (fun t token => removeLeading token t) text

/-- The ending of an id that asks for one thing by its key. -/
def byId : Text := "ById"

/-- What an id says beyond its first `verbLength` signs, the ending `ById` and the name of
the resource. -/
def surplus (resource : Text) (verbLength : Nat) (id : Text) : Text :=
  Text.upperFirst (withoutResource resource (Rows.dropEnding byId (id.drop verbLength)))

/-! ### Candidates -/

/-- The candidate with the given canonical id, whose variant adds `extra`. -/
def withSurplus (canonical verb : Text) (extra : Text) : Candidate :=
  { canonical
    variant := if extra.isEmpty then none else some (verb ++ extra) }

/-- Whether an id begins with `get` and a new word. -/
def startsGet (id : Text) : Bool :=
  Text.startsWith "get" id &&
    Text.firstMeets (fun c => Letter.isAsciiCapital c || c.isDigit) (id.drop 3)

/-- Whether an id begins with the word `verb`. -/
def startsWithWord (verb id : Text) : Bool :=
  Text.startsWith verb id && !Text.firstMeets Letter.isSmall (id.drop verb.length)

/-- The verbs that stand for a canonical id, in the order in which they are looked for. -/
def verbRules : List (Text × Text) :=
  [("edit", "update"), ("add", "create"), ("fetchAll", "getAll"), ("list", "getAll")]

/-- The candidate of an operation that has an id. -/
def candidateOf (resource id : Text) : Candidate :=
  let names := words id
  if Text.endsWith byId id then
    let verbLength := if Text.firstMeets Letter.isSmall id then (names.headD []).length else 0
    withSurplus "get" "get" (surplus resource verbLength id)
  else if startsGet id && isPlural (names.getLastD []) then
    withSurplus "getAll" "get" (surplus resource 3 id)
  else
    match verbRules.find? fun rule => startsWithWord rule.1 id with
    | some (verb, canonical) => withSurplus canonical canonical (surplus resource verb.length id)
    | none =>
      let rest := withoutResource resource id
      let stripped := Text.lowerFirst rest
      if rest.isEmpty then ⟨id, none⟩
      else ⟨stripped, if stripped = id then none else some id⟩

/-- The segments of an endpoint that are no placeholders. -/
def fixedSegments (endpoint : Text) : List Text :=
  (Text.splitAt '/' endpoint).filter fun s => !s.isEmpty && !Text.startsWith "\x7b" s

/-- An id for an operation that has none, from its method and its endpoint. -/
def idFromEndpoint (method endpoint : Text) : Text :=
  Text.lower method ++
    match (fixedSegments endpoint).getLast? with
    | some segment => pascal segment
    | none => []

end Naming

/-- An id for an operation that has none: its summary, or else its method and its endpoint. -/
def synthesizeId (method : Text) (endpoint : Scalar) (summary : Value) : Except Fault Text := do
  let title ← if summary.truthy then Naming.pascal <$> summary.asText .wrongKind else pure []
  if title.isEmpty then
    return Naming.idFromEndpoint method (← endpoint.asText .noSuchMember)
  else return title

/-- The candidate of an operation with the given id, or with none. -/
def Candidate.derive (id : Value) (resource method : Text) (endpoint : Scalar)
    (summary : Value) : Except Fault Candidate := do
  if id.truthy then
    return Naming.candidateOf resource (← id.asText .noSuchMember)
  else return ⟨← synthesizeId method endpoint summary, none⟩

/-! ### Assigning ids -/

/-- The id that each candidate would like: its variant, where the canonical id is shared and there
is a variant, else its canonical id. -/
def preferredIds (candidates : List Candidate) : List Text :=
  candidates.map fun c =>
    match c.variant with
    | some variant =>
      if (candidates.countP fun d => d.canonical == c.canonical) > 1 && !variant.isEmpty then
        variant
      else c.canonical
    | none => c.canonical

/-- An id with a number behind it. -/
def numbered (id : Text) (n : Nat) : Text := id ++ Numeral.ofNat n

/-- The first number from `n` on that makes an id new. The first number bounds those that are passed
over. -/
def numberFrom (taken : List Text) (id : Text) : (bound : Nat) → (n : Nat) → Nat
  | 0, n => n
  | bound + 1, n =>
    if taken.contains (numbered id n) then numberFrom taken id bound (n + 1) else n

/-- Gives each wanted id in turn, beside those that are `taken` already: the id itself if it is new,
else the id with the least number from 2 on that makes it new. As many numbers as there are taken
ids may be in use, so the next one is free. For an id that has been given with a number, `next` is
the number behind it, since the numbers before it stay in use. -/
def assignFrom (taken : List Text) (next : List (Text × Nat)) : List Text → List Text
  | [] => []
  | id :: rest =>
    if taken.contains id then
      let n := numberFrom taken id taken.length ((next.lookup id).getD 2)
      numbered id n :: assignFrom (numbered id n :: taken) (Entries.put id (n + 1) next) rest
    else id :: assignFrom (id :: taken) next rest

/-- The ids of the operations of a resource, in their order. -/
def assignIds (candidates : List Candidate) : List Text :=
  assignFrom [] [] (preferredIds candidates)

/-- One warning for each id that is not the preferred one. -/
def renamings (candidates : List Candidate) : List Warning :=
  ((preferredIds candidates).zip (assignIds candidates)).filterMap fun (wanted, given) =>
    if wanted = given then none else some (.renamed wanted given)

end NodeForge
