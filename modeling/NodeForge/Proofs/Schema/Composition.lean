import NodeForge.Proofs.Schema.Joining
import NodeForge.Proofs.Schema.Steps

/-!
# The pieces of a composed schema

A schema is gone through entry by entry. What comes out in the end can be said all at once: its
`siblings` are the entries beside the combinators, each composed for itself, and of the combinators
the members of `allOf` and one alternative count (`compose_map`). Where all of these are mappings,
the schema composes to a mapping that is merged from them (`compose_map_of_pieces`).

`inner` lists the schemas that stand directly in an entry, `subschemas` all nodes of a schema.
-/

namespace NodeForge.Schema

/-! ### Keywords -/

/-- Whether the schemas under a keyword are combined into one. -/
def Keyword.isCombinator : Keyword → Bool
  | .allOf | .oneOf | .anyOf => true
  | .properties | .items | .additionalProperties => false

/-- Whether a key is one of `allOf`, `oneOf` and `anyOf`. -/
def isCombinator (key : Scalar) : Bool := (Keyword.ofKey? key).any Keyword.isCombinator

theorem ofKey?_congr {k k' : Scalar} (h : (k == k') = true) :
    Keyword.ofKey? k = Keyword.ofKey? k' := by
  unfold Keyword.ofKey?
  simp only [BEq.congr_left h]

theorem isCombinator_of_ofKey? {key : Scalar} {word : Keyword}
    (h : Keyword.ofKey? key = some word) : isCombinator key = word.isCombinator := by
  rw [isCombinator, h, Option.any_some]

section Held

variable {α : Type}

/-- What a view shows of the value under a keyword, if a value stands there that it shows. -/
def held? (view : Value → Option α) (word : Keyword) (schema : Fields) : Option α :=
  schema.findSome? fun e => if Keyword.ofKey? e.1 = some word then view e.2 else none

theorem held?_cons (view : Value → Option α) (word : Keyword) (k : Scalar) (v : Value)
    (rest : Fields) : held? view word ((k, v) :: rest) =
      (if Keyword.ofKey? k = some word then view v else none).or (held? view word rest) := by
  rw [held?, List.findSome?_cons]
  dsimp only
  cases (if Keyword.ofKey? k = some word then view v else none) <;> rfl

theorem held?_append (view : Value → Option α) (word : Keyword) (schema rest : Fields) :
    held? view word (schema ++ rest) = (held? view word schema).or (held? view word rest) :=
  List.findSome?_append

theorem held?_eq_some {view : Value → Option α} {word : Keyword} {schema : Fields} {a : α}
    (h : held? view word schema = some a) :
    ∃ e ∈ schema, Keyword.ofKey? e.1 = some word ∧ view e.2 = some a := by
  obtain ⟨e, he, hview⟩ := List.exists_of_findSome?_eq_some h
  split at hview
  · next hword => exact ⟨e, he, hword, hview⟩
  · cases hview

theorem held?_eq_none {view : Value → Option α} {word : Keyword} {schema : Fields}
    (h : ∀ e ∈ schema, Keyword.ofKey? e.1 ≠ some word) : held? view word schema = none := by
  refine List.findSome?_eq_none_iff.2 fun e he => ?_
  rw [if_neg (h e he)]

/-- Where each key is listed once, the view is one of the value that looking the key up finds. -/
theorem held?_eq_get {schema : Fields} (h : Entries.Apart schema) {view : Value → Option α}
    (hnull : view .null = none) (word : Keyword) :
    held? view word schema = view (Fields.get word.name schema) := by
  have hword (k : Scalar) :
      (Keyword.ofKey? k = some word) = ((Scalar.str word.name == k) = true) := by
    rw [Keyword.ofKey?_eq_some, Scalar.str_beq_iff]
  have hentries := Entries.findSome?_of_apart h (Scalar.str word.name) view
  rw [held?, Fields.get, Fields.get?]
  simp only [hword, hentries]
  cases schema.lookup (Scalar.str word.name) with
  | none => exact hnull.symm
  | some v => rfl

end Held

/-! ### What is composed -/

/-- The first member of a list that has one. -/
def firstItem? (v : Value) : Option Value := v.items?.bind List.head?

/-- The alternative that counts: the first one of `oneOf`, or else the first one of `anyOf`. -/
def alternative? (schema : Fields) : Option Value :=
  (held? firstItem? .oneOf schema).or (held? firstItem? .anyOf schema)

/-- The entries of a schema beside its combinators. -/
def siblings (schema : Fields) : Fields := schema.filter fun e => !isCombinator e.1

theorem siblings_cons (k : Scalar) (v : Value) (rest : Fields) : siblings ((k, v) :: rest) =
    if isCombinator k then siblings rest else (k, v) :: siblings rest := by
  rw [siblings, List.filter_cons]
  cases isCombinator k <;> rfl

theorem mem_siblings {e : Scalar × Value} {schema : Fields} :
    e ∈ siblings schema ↔ e ∈ schema ∧ isCombinator e.1 = false := by
  rw [siblings, List.mem_filter, Bool.not_eq_true']

/-- The value under a keyword, or under any other key, with the schemas in it composed. -/
def composeUnder (word : Option Keyword) (v : Value) : Except Fault Value :=
  match word, v with
  | some .properties, .map ps => Value.map <$> ps.mapM fun p => do return (p.1, ← compose p.2)
  | some .items, .list xs => Value.list <$> xs.mapM compose
  | some .items, .map es | some .additionalProperties, .map es => compose (.map es)
  | _, v => .ok v

/-- An entry with the schemas in it composed. -/
def composeEntry (e : Scalar × Value) : Except Fault (Scalar × Value) := do
  return (e.1, ← composeUnder (Keyword.ofKey? e.1) e.2)

theorem composeEach_eq_map (xs : List Value) : composeEach xs = xs.map compose := by
  induction xs with
  | nil => rfl
  | cons x xs ih => rw [composeEach, ih, List.map_cons]

theorem composeFields_eq_mapM (es : Fields) :
    composeFields es = es.mapM fun e => do return (e.1, ← compose e.2) := by
  induction es with
  | nil => rfl
  | cons e es ih =>
    obtain ⟨k, v⟩ := e
    rw [composeFields, ih, List.mapM_cons, bind_assoc]
    rfl

/-! ### All entries together -/

/-- What all entries of a schema contribute. -/
def pieces (schema : Fields) : Parts where
  plain := (siblings schema).mapM composeEntry
  allOf := (held? Value.items? .allOf schema).map fun xs => mergeAll (.map []) (xs.map compose)
  oneOf := (held? firstItem? .oneOf schema).map compose
  anyOf := (held? firstItem? .anyOf schema).map compose

theorem pieces_cons_of_plain {k : Scalar} (h : isCombinator k = false) (v : Value)
    (rest : Fields) : pieces ((k, v) :: rest) =
      (pieces rest).withPlain k (composeUnder (Keyword.ofKey? k) v) := by
  have hne (word : Keyword) (hword : word.isCombinator = true) : Keyword.ofKey? k ≠ some word := by
    intro heq
    rw [isCombinator_of_ofKey? heq, hword] at h
    cases h
  rw [pieces, siblings_cons, h, held?_cons, held?_cons, held?_cons, if_neg (hne .allOf rfl),
    if_neg (hne .oneOf rfl), if_neg (hne .anyOf rfl), if_neg Bool.false_ne_true, List.mapM_cons,
    composeEntry, bind_assoc]
  rfl

theorem pieces_cons_of_combinator {k : Scalar} {word : Keyword}
    (hword : Keyword.ofKey? k = some word) (h : word.isCombinator = true) (v : Value)
    (rest : Fields) : pieces ((k, v) :: rest) =
      { plain := (pieces rest).plain
        allOf := ((if word = .allOf then v.items? else none).map fun xs =>
          mergeAll (.map []) (xs.map compose)).or (pieces rest).allOf
        oneOf := ((if word = .oneOf then firstItem? v else none).map compose).or
          (pieces rest).oneOf
        anyOf := ((if word = .anyOf then firstItem? v else none).map compose).or
          (pieces rest).anyOf } := by
  have hdrop : siblings ((k, v) :: rest) = siblings rest := by
    rw [siblings_cons, isCombinator_of_ofKey? hword, h, if_pos rfl]
  rw [pieces, hdrop, held?_cons, held?_cons, held?_cons, hword]
  simp only [Option.some.injEq, Option.map_or]
  rfl

theorem partsOf_eq (schema : Fields) : partsOf schema = pieces schema := by
  have hitems (xs : List Value) : (xs.map compose).mapM id = xs.mapM compose := by
    rw [List.mapM_map]
    rfl
  induction schema with
  | nil => rfl
  | cons e rest ih =>
    obtain ⟨k, v⟩ := e
    rw [partsOf.eq_def]
    simp only [ih, composeEach_eq_map, composeFields_eq_mapM, hitems]
    cases hword : Keyword.ofKey? k with
    | none =>
      rw [pieces_cons_of_plain (by rw [isCombinator, hword]; rfl), hword]
      rfl
    | some word =>
      cases word with
      | allOf =>
        rw [pieces_cons_of_combinator hword rfl]
        cases v <;> rfl
      | oneOf | anyOf =>
        rw [pieces_cons_of_combinator hword rfl]
        cases v with
        | list xs => cases xs <;> rfl
        | _ => rfl
      | properties | items | additionalProperties =>
        rw [pieces_cons_of_plain (isCombinator_of_ofKey? hword), hword]
        cases v <;> rfl

/-- **How a schema is composed.** Its siblings are composed one by one. They are written over the
merged members of `allOf`, and both over the alternative. -/
theorem compose_map (schema : Fields) : compose (.map schema) = (do
    let own ← (siblings schema).mapM composeEntry
    let upper ← writeOver ((held? Value.items? .allOf schema).map fun xs =>
      mergeAll (.map []) (xs.map compose)) (.map own)
    writeOver ((alternative? schema).map compose) upper) := by
  rw [compose, partsOf_eq, Parts.assemble, pieces, alternative?, Option.map_or]
  dsimp only
  cases held? firstItem? .oneOf schema <;> rfl

theorem compose_of_fields?_eq_none {v : Value} (h : v.fields? = none) : compose v = .ok v := by
  cases v with
  | map es => cases h
  | _ => rw [compose]; exact nofun

/-- Without combinators only the siblings are left. -/
theorem compose_map_of_plain {schema : Fields} (h : ∀ e ∈ schema, isCombinator e.1 = false) :
    compose (.map schema) = Value.map <$> schema.mapM composeEntry := by
  have hsiblings : siblings schema = schema :=
    List.filter_eq_self.2 fun e he => by simp [h e he]
  have hnone {α : Type} (view : Value → Option α) (word : Keyword)
      (hword : word.isCombinator = true) : held? view word schema = none := by
    refine held?_eq_none fun e he heq => ?_
    have hplain := h e he
    rw [isCombinator_of_ofKey? heq, hword] at hplain
    cases hplain
  rw [compose_map, hsiblings, alternative?, hnone _ .allOf rfl, hnone _ .oneOf rfl,
    hnone _ .anyOf rfl]
  cases schema.mapM composeEntry <;> rfl

theorem mapM_composeEntry_of_plain {schema own : Fields}
    (hplain : ∀ e ∈ schema, isCombinator e.1 = false) (h : compose (.map schema) = .ok (.map own)) :
    schema.mapM composeEntry = .ok own := by
  rw [compose_map_of_plain hplain] at h
  obtain ⟨own', hown', heq⟩ := Outcome.map_eq_ok.1 h
  rw [Value.map.injEq] at heq
  rw [hown', heq]

theorem keys_mapM_composeEntry {es own : Fields} (h : es.mapM composeEntry = .ok own) :
    Entries.keys own = Entries.keys es := by
  refine (Outcome.map_eq_map_of_forall₂ (fun e e' he => ?_) (Outcome.mapM_eq_ok.1 h)).symm
  obtain ⟨w, -, he⟩ := Outcome.bind_eq_ok.1 he
  rw [Outcome.pure_eq_ok] at he
  rw [← he]

/-! ### Pieces that are mappings -/

/-- A mapping written over another one, where there is another one. -/
def written (base : Option Fields) (schema : Fields) : Fields :=
  base.elim schema fun base => joined base schema

theorem mergeAll_map (base : Fields) (members : List Fields) :
    mergeAll (.map base) (members.map fun m => .ok (.map m)) =
      .ok (.map (members.foldl joined base)) := by
  induction members generalizing base with
  | nil => rfl
  | cons m members ih =>
    show (do mergeAll (← merge (.map base) (.map m)) _) = _
    rw [merge_map]
    exact ih (joined base m)

theorem writeOver_map (base : Option Fields) (schema : Fields) :
    writeOver (base.map fun b => .ok (.map b)) (.map schema) =
      .ok (.map (written base schema)) := by
  cases base with
  | none => rfl
  | some b => exact merge_map b schema

/-- A schema whose siblings, members and alternative compose to mappings composes to a mapping
itself. -/
theorem compose_map_of_pieces {schema own : Fields} {members : Option (List Fields)}
    {alternative : Option Fields} (hown : (siblings schema).mapM composeEntry = .ok own)
    (hmembers : (held? Value.items? .allOf schema).map (List.map compose) =
      members.map (List.map fun m => .ok (.map m)))
    (halternative : (alternative? schema).map compose = alternative.map fun a => .ok (.map a)) :
    compose (.map schema) =
      .ok (.map (written alternative (written (members.map (List.foldl joined [])) own))) := by
  have hmerged : ((held? Value.items? .allOf schema).map fun xs =>
      mergeAll (.map []) (xs.map compose)) =
        (members.map (List.foldl joined [])).map fun b => .ok (.map b) := by
    have hmap := congrArg (Option.map (mergeAll (.map []))) hmembers
    rw [Option.map_map, Option.map_map] at hmap
    rw [Option.map_map]
    refine hmap.trans (congrArg (fun f => Option.map f members) ?_)
    funext ms
    exact mergeAll_map [] ms
  rw [compose_map, hown, hmerged, halternative]
  show (do
    let upper ← writeOver _ (.map own)
    writeOver _ upper) = _
  rw [writeOver_map]
  exact writeOver_map _ _

/-! ### Nodes -/

/-- The schemas that stand directly in an entry: under a combinator the combined ones, of
alternatives the first. -/
def inner (e : Scalar × Value) : List Value :=
  match Keyword.ofKey? e.1, e.2 with
  | some .allOf, .list xs => xs
  | some .oneOf, v | some .anyOf, v => (firstItem? v).toList
  | some .properties, .map ps => Entries.values ps
  | some .items, .list xs => xs
  | some .items, .map es | some .additionalProperties, .map es => [.map es]
  | _, _ => []

mutual

/-- A schema that is a mapping, and all mappings that stand as schemas in it: under `properties`,
`items` and `additionalProperties`, among the members of `allOf`, and as first alternative. -/
def subschemas : Value → List Fields
  | .map es => es :: entrySubschemas es
  | _ => []

/-- The nodes of the schemas in a list. -/
def itemSubschemas : List Value → List Fields
  | [] => []
  | x :: xs => subschemas x ++ itemSubschemas xs

/-- The nodes of the schemas under the names of a mapping. -/
def fieldSubschemas : List (Scalar × Value) → List Fields
  | [] => []
  | (_, v) :: es => subschemas v ++ fieldSubschemas es

/-- The nodes of the schemas in the entries of a schema. -/
def entrySubschemas : List (Scalar × Value) → List Fields
  | [] => []
  | (k, v) :: rest =>
    (match Keyword.ofKey? k, v with
      | some .allOf, .list xs => itemSubschemas xs
      | some .oneOf, .list (x :: _) | some .anyOf, .list (x :: _) => subschemas x
      | some .properties, .map ps => fieldSubschemas ps
      | some .items, .list xs => itemSubschemas xs
      | some .items, .map es | some .additionalProperties, .map es => es :: entrySubschemas es
      | _, _ => []) ++ entrySubschemas rest

end

theorem itemSubschemas_eq (xs : List Value) : itemSubschemas xs = xs.flatMap subschemas := by
  induction xs with
  | nil => rfl
  | cons x xs ih => rw [itemSubschemas, ih, List.flatMap_cons]

theorem fieldSubschemas_eq (es : Fields) :
    fieldSubschemas es = (Entries.values es).flatMap subschemas := by
  induction es with
  | nil => rfl
  | cons e es ih =>
    obtain ⟨k, v⟩ := e
    rw [fieldSubschemas, ih, Entries.values, Entries.values, List.map_cons, List.flatMap_cons]

theorem entrySubschemas_eq (es : Fields) :
    entrySubschemas es = es.flatMap fun e => (inner e).flatMap subschemas := by
  induction es with
  | nil => rfl
  | cons e rest ih =>
    obtain ⟨k, v⟩ := e
    rw [entrySubschemas.eq_def, List.flatMap_cons, ← ih]
    simp only [itemSubschemas_eq, fieldSubschemas_eq, inner]
    refine congrArg (· ++ entrySubschemas rest) ?_
    cases Keyword.ofKey? k with
    | none => rfl
    | some word =>
      cases word with
      | oneOf | anyOf =>
        cases v with
        | list xs =>
          cases xs with
          | nil => rfl
          | cons x xs => exact (List.append_nil (subschemas x)).symm
        | _ => rfl
      | items | additionalProperties =>
        cases v with
        | map es =>
          rw [List.flatMap_cons, List.flatMap_nil, List.append_nil]
          rfl
        | _ => rfl
      | _ => cases v <;> rfl

/-- The nodes of a schema are itself and the nodes of what stands in its entries. -/
theorem mem_subschemas_map {node schema : Fields} : node ∈ subschemas (.map schema) ↔
    node = schema ∨ ∃ e ∈ schema, ∃ v ∈ inner e, node ∈ subschemas v := by
  rw [subschemas, List.mem_cons, entrySubschemas_eq, List.mem_flatMap]
  simp only [List.mem_flatMap]

theorem subschemas_of_fields?_eq_none {v : Value} (h : v.fields? = none) : subschemas v = [] := by
  cases v with
  | map es => cases h
  | _ => rw [subschemas]; exact nofun

/-- The members of `allOf` stand in a combinator. -/
theorem exists_inner_of_member {schema : Fields} {xs : List Value}
    (h : held? Value.items? .allOf schema = some xs) {x : Value} (hx : x ∈ xs) :
    ∃ e ∈ schema, isCombinator e.1 = true ∧ x ∈ inner e := by
  obtain ⟨e, he, hword, hxs⟩ := held?_eq_some h
  rw [Value.items?_eq_some] at hxs
  refine ⟨e, he, isCombinator_of_ofKey? hword, ?_⟩
  simpa only [inner, hword, hxs] using hx

/-- The alternative that counts stands in a combinator. -/
theorem exists_inner_of_alternative {schema : Fields} {x : Value}
    (h : alternative? schema = some x) :
    ∃ e ∈ schema, isCombinator e.1 = true ∧ x ∈ inner e := by
  rcases Option.or_eq_some_iff.1 h with h | ⟨-, h⟩
  · obtain ⟨e, he, hword, hx⟩ := held?_eq_some h
    refine ⟨e, he, isCombinator_of_ofKey? hword, ?_⟩
    simpa only [inner, hword, Option.mem_toList] using hx
  · obtain ⟨e, he, hword, hx⟩ := held?_eq_some h
    refine ⟨e, he, isCombinator_of_ofKey? hword, ?_⟩
    simpa only [inner, hword, Option.mem_toList] using hx

theorem sizeOf_le_of_mem_inner {e : Scalar × Value} {v : Value} (h : v ∈ inner e) :
    sizeOf v ≤ sizeOf e.2 := by
  obtain ⟨k, w⟩ := e
  have hitem {x : Value} {xs : List Value} (hx : x ∈ xs) : sizeOf x ≤ sizeOf (Value.list xs) := by
    have hlt := List.sizeOf_lt_of_mem hx
    rw [Value.list.sizeOf_spec]
    omega
  have hfirst (hv : v ∈ (firstItem? w).toList) : sizeOf v ≤ sizeOf w := by
    rw [Option.mem_toList, firstItem?, Option.bind_eq_some_iff] at hv
    obtain ⟨xs, hxs, hhead⟩ := hv
    rw [Value.items?_eq_some.1 hxs]
    exact hitem (List.mem_of_mem_head? hhead)
  unfold inner at h
  split at h
  case h_1 | h_5 =>
    next hw =>
      rw [hw]
      exact hitem h
  case h_2 | h_3 => exact hfirst h
  case h_4 hw =>
    obtain ⟨⟨name, p⟩, hp, rfl⟩ := List.mem_map.1 h
    have hlt := List.sizeOf_lt_of_mem hp
    rw [hw]
    simp only [Value.map.sizeOf_spec, Prod.mk.sizeOf_spec] at hlt ⊢
    omega
  case h_6 | h_7 =>
    next hw => rw [hw, List.mem_singleton.1 h]
  case h_8 => cases h

/-- Induction on a schema through the schemas in its entries. -/
@[elab_as_elim]
theorem schema_induction {P : Value → Prop} (v : Value)
    (other : ∀ v : Value, v.fields? = none → P v)
    (node : ∀ schema : Fields, (∀ e ∈ schema, ∀ w ∈ inner e, P w) → P (.map schema)) : P v := by
  -- The schemas of an entry lie more than one constructor deep, so the induction is on the size.
  induction hsize : sizeOf v using Nat.strongRecOn generalizing v with
  | _ size ih =>
    cases hv : v.fields? with
    | none => exact other v hv
    | some schema =>
      rw [Value.fields?_eq_some] at hv
      subst hv
      refine node schema fun e he w hw => ih (sizeOf w) ?_ w rfl
      have hlt := List.sizeOf_lt_of_mem he
      have hle := sizeOf_le_of_mem_inner hw
      obtain ⟨k, u⟩ := e
      simp only [Value.map.sizeOf_spec, Prod.mk.sizeOf_spec] at hsize hlt hle
      omega

end NodeForge.Schema
