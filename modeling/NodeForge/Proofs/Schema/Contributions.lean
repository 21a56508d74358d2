import NodeForge.Proofs.Schema.Composition
import NodeForge.Proofs.Schema.Shares

/-!
# What the parts of a composed schema contribute

A composed schema is made from its contributors: one alternative, the members of `allOf` in their
order, and the keys beside them, each composed for itself. The result has the properties of all of
them, it requires what any of them requires, and under a key with single values it has the value of
the last contributor that has one (`compose_unites`).

`Unites` says so of any row of schemas and a schema made from them. It holds of a schema alone, and
it is kept when two schemas are merged (`Unites.joined`); the order of the merges gives the order of
the contributors.
-/

namespace NodeForge.Schema

open Value (IsCopy)

/-- The names that a schema requires, where these are a list. -/
def requiredIn (schema : Fields) : List Value := (Fields.get "required" schema).items?.getD []

/-- Whether the properties of a schema are absent or a mapping, and what it requires is absent or a
list. -/
structure IsObjectSchema (schema : Fields) : Prop where
  properties : ∀ v ∈ Fields.get? "properties" schema, v.fields?.isSome = true
  required : ∀ v ∈ Fields.get? "required" schema, v.items?.isSome = true

instance (schema : Fields) : Decidable (IsObjectSchema schema) :=
  decidable_of_iff ((∀ v ∈ Fields.get? "properties" schema, v.fields?.isSome = true) ∧
      ∀ v ∈ Fields.get? "required" schema, v.items?.isSome = true)
    ⟨fun h => ⟨h.1, h.2⟩, fun h => ⟨h.properties, h.required⟩⟩

/-- Whether a value stands for itself: it is neither a mapping nor a list. -/
def IsSingle (v : Value) : Prop := v.fields? = none ∧ v.items? = none

/-- Whether a schema unites a row of schemas: it has the keys, the property names and the required
names of all of them, and of single values under one key it has the last one. -/
structure Unites (row : List Fields) (schema : Fields) : Prop where
  apart : Entries.Apart schema
  object : IsObjectSchema schema
  keys : ∀ k, Entries.has k schema = row.any fun r => Entries.has k r
  properties : ∀ k, Entries.has k (propertiesIn schema) =
    row.any fun r => Entries.has k (propertiesIn r)
  required : List.Forall₂ IsCopy (row.flatMap requiredIn) (requiredIn schema)
  single : ∀ k, (∀ r ∈ row, ∀ v ∈ r.lookup k, IsSingle v) →
    Option.Rel IsCopy (row.reverse.findSome? fun r => r.lookup k) (schema.lookup k)

/-! ### Two schemas merged -/

section Joined

variable {a b : Fields}

theorem get?_joined (hb : Entries.Apart b) (key : Text) : Fields.get? key (joined a b) =
    ((Fields.get? key b).map fun v => meet ((Fields.get? key a).map Value.copied) v.copied).or
      ((Fields.get? key a).map Value.copied) :=
  lookup_joined (.str key) hb

theorem properties_joined (ha : IsObjectSchema a) (hb : IsObjectSchema b)
    (hapart : Entries.Apart b) :
    (∀ v ∈ Fields.get? "properties" (joined a b), v.fields?.isSome = true) ∧
      ∀ k, Entries.has k (propertiesIn (joined a b)) =
        (Entries.has k (propertiesIn a) || Entries.has k (propertiesIn b)) := by
  have hmapping {schema : Fields} (h : IsObjectSchema schema) {v : Value}
      (hv : Fields.get? "properties" schema = some v) : ∃ ps, v = .map ps := by
    obtain ⟨ps, hps⟩ := Option.isSome_iff_exists.1 (h.properties v hv)
    exact ⟨ps, Value.fields?_eq_some.1 hps⟩
  unfold propertiesIn Fields.get
  rw [get?_joined hapart]
  cases hA : Fields.get? "properties" a with
  | none =>
    cases hB : Fields.get? "properties" b with
    | none => simp [Value.fields?]
    | some v =>
      obtain ⟨qs, rfl⟩ := hmapping hb hB
      simp [meet, Value.copied_map, Value.fields?, Value.has_copiedFields]
  | some u =>
    obtain ⟨ps, rfl⟩ := hmapping ha hA
    cases hB : Fields.get? "properties" b with
    | none => simp [Value.copied_map, Value.fields?, Value.has_copiedFields]
    | some v =>
      obtain ⟨qs, rfl⟩ := hmapping hb hB
      simp [meet, Value.copied_map, mergeOver_map, Value.fields?, has_mergeFields,
        Value.has_copiedFields]

theorem required_joined (ha : IsObjectSchema a) (hb : IsObjectSchema b)
    (hapart : Entries.Apart b) :
    (∀ v ∈ Fields.get? "required" (joined a b), v.items?.isSome = true) ∧
      requiredIn (joined a b) = (requiredIn a ++ requiredIn b).map Value.copied := by
  have hlist {schema : Fields} (h : IsObjectSchema schema) {v : Value}
      (hv : Fields.get? "required" schema = some v) : ∃ xs, v = .list xs := by
    obtain ⟨xs, hxs⟩ := Option.isSome_iff_exists.1 (h.required v hv)
    exact ⟨xs, Value.items?_eq_some.1 hxs⟩
  unfold requiredIn Fields.get
  rw [get?_joined hapart]
  cases hA : Fields.get? "required" a with
  | none =>
    cases hB : Fields.get? "required" b with
    | none => simp [Value.items?]
    | some v =>
      obtain ⟨ys, rfl⟩ := hlist hb hB
      simp [meet, Value.copied_list, Value.items?]
  | some u =>
    obtain ⟨xs, rfl⟩ := hlist ha hA
    cases hB : Fields.get? "required" b with
    | none => simp [Value.copied_list, Value.items?]
    | some v =>
      obtain ⟨ys, rfl⟩ := hlist hb hB
      simp [meet, Value.copied_list, mergeOver_list, Value.items?]

end Joined

/-! ### Single values -/

theorem isSingle_of_isCopy {v w : Value} (h : IsCopy v w) (hv : IsSingle v) : IsSingle w := by
  refine h.induction (P := IsSingle) (fun u hu => ?_) hv
  rw [IsSingle, Value.fields?_copied, Value.items?_copied, hu.1, hu.2]
  exact ⟨rfl, rfl⟩

theorem meet_of_isSingle {v : Value} (h : IsSingle v) (current : Option Value) :
    meet current v = v := by
  cases current with
  | none => rfl
  | some u => exact mergeOver_of_single h.1 h.2 u

theorem rel_map_copied {x y : Option Value} (h : Option.Rel IsCopy x y) :
    Option.Rel IsCopy x (y.map Value.copied) := by
  cases h with
  | none => exact .none
  | some hcopy => exact .some hcopy.copied

/-! ### Rows -/

theorem unites_self {schema : Fields} (hapart : Entries.Apart schema)
    (hobject : IsObjectSchema schema) : Unites [schema] schema where
  apart := hapart
  object := hobject
  keys k := by simp
  properties k := by simp
  required := by simpa using List.forall₂_same.2 fun v _ => IsCopy.refl v
  single k _ := by
    show Option.Rel IsCopy (List.findSome? _ [schema]) _
    rw [List.findSome?_cons, List.findSome?_nil]
    cases schema.lookup k with
    | none => exact .none
    | some v => exact .some (.refl v)

theorem unites_nil : Unites [] [] where
  apart := Entries.apart_nil
  object := ⟨nofun, nofun⟩
  keys _ := rfl
  properties _ := rfl
  required := .nil
  single _ _ := .none

/-- Merging two schemas puts the rows that they unite one behind the other. -/
theorem Unites.joined {row row' : List Fields} {a b : Fields} (ha : Unites row a)
    (hb : Unites row' b) : Unites (row ++ row') (joined a b) where
  apart := apart_joined ha.apart
  object := ⟨(properties_joined ha.object hb.object hb.apart).1,
    (required_joined ha.object hb.object hb.apart).1⟩
  keys k := by rw [has_joined, List.any_append, ha.keys, hb.keys]
  properties k := by
    rw [(properties_joined ha.object hb.object hb.apart).2, List.any_append, ha.properties,
      hb.properties]
  required := by
    rw [(required_joined ha.object hb.object hb.apart).2, List.flatMap_append,
      List.forall₂_map_right_iff]
    exact List.rel_append (ha.required.imp fun _ _ h => h.copied)
      (hb.required.imp fun _ _ h => h.copied)
  single k h := by
    have hfirst := ha.single k fun r hr => h r (List.mem_append_left _ hr)
    have hlast := hb.single k fun r hr => h r (List.mem_append_right _ hr)
    rw [lookup_joined k hb.apart, List.reverse_append, List.findSome?_append]
    cases hfind : row'.reverse.findSome? fun r => r.lookup k with
    | some v =>
      -- the second schema has a value here, and being single it stays as it is
      obtain ⟨r, hr, hv⟩ := List.exists_of_findSome?_eq_some hfind
      have hsingle : IsSingle v := h r (List.mem_append_right _ (List.mem_reverse.1 hr)) v hv
      rw [hfind] at hlast
      generalize b.lookup k = last at hlast
      cases hlast with
      | some hcopy =>
        have hcopied := hcopy.copied
        rw [Option.map_some, meet_of_isSingle (isSingle_of_isCopy hcopied hsingle)]
        exact .some hcopied
    | none =>
      rw [hfind] at hlast
      generalize b.lookup k = last at hlast
      cases hlast
      rw [Option.none_or, Option.map_none, Option.none_or]
      exact rel_map_copied hfirst

theorem Unites.foldl_joined {row : List Fields} {base : Fields} {members : List Fields}
    (hbase : Unites row base) (h : ∀ m ∈ members, Unites [m] m) :
    Unites (row ++ members) (members.foldl Schema.joined base) := by
  induction members generalizing row base with
  | nil => simpa using hbase
  | cons m members ih =>
    have hrest := ih (hbase.joined (h m List.mem_cons_self)) fun m' hm' =>
      h m' (List.mem_cons_of_mem _ hm')
    rwa [List.append_assoc] at hrest

theorem Unites.written {base : Option Fields} {row row' : List Fields} {schema : Fields}
    (hbase : base.elim (row = []) (Unites row)) (h : Unites row' schema) :
    Unites (row ++ row') (written base schema) := by
  cases base with
  | none =>
    rw [show row = [] from hbase]
    exact h
  | some b => exact Unites.joined hbase h

/-! ### Keys of a composed schema -/

theorem fields_eq_ok {v : Value} {es : Fields} : v.fields = .ok es ↔ v = .map es := by
  rw [Value.fields, Outcome.orFault_eq_ok, Value.fields?_eq_some]

/-- Only a mapping can be merged into a mapping. -/
theorem merge_map_eq_ok {base : Fields} {extra w : Value} (h : merge (.map base) extra = .ok w) :
    ∃ es, extra = .map es ∧ w = .map (joined base es) := by
  obtain ⟨es, hes, -⟩ := Outcome.bind_eq_ok.1 h
  rw [fields_eq_ok] at hes
  rw [hes, merge_map, Except.ok.injEq] at h
  exact ⟨es, hes, h.symm⟩

/-- A merged schema that is a mapping comes from two mappings. -/
theorem merge_eq_ok_map {base extra : Value} {r : Fields} (h : merge base extra = .ok (.map r)) :
    ∃ bs es, base = .map bs ∧ extra = .map es ∧ r = joined bs es := by
  cases hbase : base.fields? with
  | some bs =>
    rw [Value.fields?_eq_some] at hbase
    rw [hbase] at h
    obtain ⟨es, hes, hr⟩ := merge_map_eq_ok h
    rw [Value.map.injEq] at hr
    exact ⟨bs, es, hbase, hes, hr⟩
  | none =>
    obtain ⟨es, -, h⟩ := Outcome.bind_eq_ok.1 h
    cases es with
    | nil =>
      -- nothing is written, and a copy of no mapping is none
      have hcopy : base.copied.fields? = some r := by
        rw [Outcome.pure_eq_ok] at h
        rw [h, Value.fields?]
      rw [Value.fields?_copied, hbase] at hcopy
      cases hcopy
    | cons e es =>
      obtain ⟨bs, hbs, -⟩ := Outcome.bind_eq_ok.1 h
      rw [fields_eq_ok.1 hbs] at hbase
      cases hbase

theorem apart_of_mergeAll {base r : Fields} {schemas : List (Except Fault Value)}
    (hbase : Entries.Apart base) (h : mergeAll (.map base) schemas = .ok (.map r)) :
    Entries.Apart r := by
  induction schemas generalizing base with
  | nil =>
    rw [mergeAll, Except.ok.injEq, Value.map.injEq] at h
    rwa [← h]
  | cons s schemas ih =>
    obtain ⟨extra, -, h⟩ := Outcome.bind_eq_ok.1 h
    obtain ⟨w, hw, h⟩ := Outcome.bind_eq_ok.1 h
    obtain ⟨es, -, rfl⟩ := merge_map_eq_ok hw
    exact ih (apart_joined hbase) h

theorem apart_of_writeOver {base : Option (Except Fault Value)} {schema : Value} {r : Fields}
    (hbase : ∀ b, base = some (.ok (.map b)) → Entries.Apart b)
    (hschema : ∀ s, schema = .map s → Entries.Apart s)
    (h : writeOver base schema = .ok (.map r)) : Entries.Apart r := by
  cases base with
  | none =>
    rw [writeOver, Except.ok.injEq] at h
    exact hschema r h
  | some c =>
    obtain ⟨w, hw, h⟩ := Outcome.bind_eq_ok.1 h
    obtain ⟨bs, es, rfl, -, rfl⟩ := merge_eq_ok_map h
    exact apart_joined (hbase bs (by rw [hw]))

theorem apart_siblings {schema : Fields} (h : Entries.Apart schema) :
    Entries.Apart (siblings schema) :=
  h.sublist (List.filter_sublist.map _)

/-- A schema whose nodes list each key once is composed to a schema that does. -/
theorem apart_of_compose {v : Value} {r : Fields} (h : ∀ node ∈ subschemas v, Entries.Apart node)
    (hr : compose v = .ok (.map r)) : Entries.Apart r := by
  induction v using schema_induction generalizing r with
  | other v hv =>
    rw [compose_of_fields?_eq_none hv, Except.ok.injEq] at hr
    rw [hr] at hv
    cases hv
  | node schema ih =>
    rw [compose_map] at hr
    obtain ⟨own, hown, hr⟩ := Outcome.bind_eq_ok.1 hr
    obtain ⟨upper, hupper, hr⟩ := Outcome.bind_eq_ok.1 hr
    have hself : Entries.Apart schema := h schema (mem_subschemas_map.2 (.inl rfl))
    have hownApart : Entries.Apart own := by
      rw [Entries.Apart, keys_mapM_composeEntry hown]
      exact apart_siblings hself
    refine apart_of_writeOver (fun b hb => ?_) (fun s hs => ?_) hr
    · obtain ⟨x, hx, hb⟩ := Option.map_eq_some_iff.1 hb
      obtain ⟨e, he, -, hmem⟩ := exists_inner_of_alternative hx
      exact ih e he x hmem
        (fun node hnode => h node (mem_subschemas_map.2 (.inr ⟨e, he, x, hmem, hnode⟩))) hb
    · rw [hs] at hupper
      refine apart_of_writeOver (fun b hb => ?_) (fun s hs => ?_) hupper
      · obtain ⟨xs, -, hb⟩ := Option.map_eq_some_iff.1 hb
        exact apart_of_mergeAll Entries.apart_nil hb
      · rw [Value.map.injEq] at hs
        rwa [← hs]

/-! ### The contributors -/

/-- What contributes to a composed schema, in the order in which it counts: an alternative of
`oneOf` or else of `anyOf`, the members of `allOf`, and the keys beside them. -/
def contributors (schema : Fields) : List Value :=
  ((firstItem? (Fields.get "oneOf" schema)).or (firstItem? (Fields.get "anyOf" schema))).toList ++
    (Fields.get "allOf" schema).items?.getD [] ++ [.map (siblings schema)]

theorem contributors_eq {schema : Fields} (h : Entries.Apart schema) :
    contributors schema = (alternative? schema).toList ++
      (held? Value.items? .allOf schema).getD [] ++ [.map (siblings schema)] := by
  rw [contributors, alternative?, held?_eq_get h rfl, held?_eq_get h rfl, held?_eq_get h rfl]
  rfl

/-- The schemas that a schema combines stand in its entries, and so do those of its siblings. -/
theorem mem_subschemas_of_contributor {schema : Fields} (hself : Entries.Apart schema) {v : Value}
    (hv : v ∈ contributors schema) {node : Fields} (hnode : node ∈ subschemas v) :
    node = siblings schema ∨ node ∈ subschemas (.map schema) := by
  have hentry : (∃ e ∈ schema, ∃ w ∈ inner e, node ∈ subschemas w) →
      node ∈ subschemas (.map schema) := fun h => mem_subschemas_map.2 (.inr h)
  rw [contributors_eq hself, List.mem_append, List.mem_append, List.mem_singleton] at hv
  rcases hv with (hv | hv) | rfl
  · obtain ⟨e, he, -, hmem⟩ := exists_inner_of_alternative (Option.mem_toList.1 hv)
    exact .inr (hentry ⟨e, he, v, hmem, hnode⟩)
  · cases hheld : held? Value.items? .allOf schema with
    | none =>
      rw [hheld] at hv
      cases hv
    | some xs =>
      rw [hheld] at hv
      obtain ⟨e, he, -, hmem⟩ := exists_inner_of_member hheld hv
      exact .inr (hentry ⟨e, he, v, hmem, hnode⟩)
  · rcases mem_subschemas_map.1 hnode with rfl | ⟨e, he, w, hw, hnode⟩
    · exact .inl rfl
    · exact .inr (hentry ⟨e, (mem_siblings.1 he).1, w, hw, hnode⟩)

/-- Members that are composed one by one unite when they are merged, if there are any. -/
theorem exists_joinedMembers {held : Option (List Value)} {members : List Fields}
    (h : List.Forall₂ (fun v r => compose v = .ok (.map r)) (held.getD []) members)
    (hunites : ∀ m ∈ members, Unites [m] m) :
    ∃ joinedMembers : Option (List Fields),
      held.map (List.map compose) = joinedMembers.map (List.map fun m => .ok (.map m)) ∧
      (joinedMembers.map (List.foldl joined [])).elim (members = []) (Unites members) := by
  cases held with
  | none => exact ⟨none, rfl, List.forall₂_nil_left_iff.1 h⟩
  | some xs =>
    refine ⟨some members, congrArg some ?_, unites_nil.foldl_joined hunites⟩
    exact Outcome.map_eq_map_of_forall₂ (fun _ _ hcompose => hcompose) h

theorem exists_alternative {held : Option Value} {alternatives : List Fields}
    (h : List.Forall₂ (fun v r => compose v = .ok (.map r)) held.toList alternatives)
    (hunites : ∀ a ∈ alternatives, Unites [a] a) :
    ∃ alternative : Option Fields,
      held.map compose = alternative.map (fun a => .ok (.map a)) ∧
      alternative.elim (alternatives = []) (Unites alternatives) := by
  cases held with
  | none => exact ⟨none, rfl, List.forall₂_nil_left_iff.1 h⟩
  | some x =>
    obtain ⟨a, _, ha, hnil, rfl⟩ := List.forall₂_cons_left_iff.1 h
    rw [List.forall₂_nil_left_iff] at hnil
    subst hnil
    exact ⟨some a, congrArg some ha, hunites a List.mem_cons_self⟩

/-- **What the parts of a composed schema contribute.** Where each contributor is composed to an
object schema, the schema is composed to one that unites them in their order. -/
theorem compose_unites {schema : Fields} {row : List Fields}
    (hapart : ∀ node ∈ subschemas (.map schema), Entries.Apart node)
    (hrow : List.Forall₂ (fun v r => compose v = .ok (.map r)) (contributors schema) row)
    (hobject : ∀ r ∈ row, IsObjectSchema r) :
    ∃ result, compose (.map schema) = .ok (.map result) ∧ Unites row result := by
  have hself : Entries.Apart schema := hapart schema (mem_subschemas_map.2 (.inl rfl))
  have hunites : ∀ r ∈ row, Unites [r] r := by
    intro r hr
    obtain ⟨v, hv, hcompose⟩ := Outcome.exists_left_of_mem hrow hr
    refine unites_self (apart_of_compose (fun node hnode => ?_) hcompose) (hobject r hr)
    rcases mem_subschemas_of_contributor hself hv hnode with rfl | hnode
    · exact apart_siblings hself
    · exact hapart node hnode
  rw [contributors_eq hself] at hrow
  obtain ⟨front, owns, rfl, hrow, howns⟩ := Outcome.forall₂_append_left hrow
  obtain ⟨alternatives, members, rfl, halternatives, hmembers⟩ := Outcome.forall₂_append_left hrow
  obtain ⟨own, _, hown, hnil, rfl⟩ := List.forall₂_cons_left_iff.1 howns
  rw [List.forall₂_nil_left_iff] at hnil
  subst hnil
  have hownEntries : (siblings schema).mapM composeEntry = .ok own :=
    mapM_composeEntry_of_plain (fun e he => (mem_siblings.1 he).2) hown
  obtain ⟨joinedMembers, hmembersEq, hmembersUnite⟩ :=
    exists_joinedMembers hmembers fun m hm => hunites m (by simp [hm])
  obtain ⟨alternative, halternativeEq, halternativeUnites⟩ :=
    exists_alternative halternatives fun a ha => hunites a (by simp [ha])
  refine ⟨_, compose_map_of_pieces hownEntries hmembersEq halternativeEq, ?_⟩
  rw [List.append_assoc]
  exact Unites.written halternativeUnites
    (Unites.written hmembersUnite (hunites own (by simp)))

/-- The schema of a parcel: an alternative of `anyOf`, since `oneOf` has none, two members, of which
the first is composed itself, and a title and properties beside them. -/
def parcelSchema : Fields :=
  [(.str "title", .str "Parcel"),
    (.str "allOf", .list [
      .record [
        ("allOf", .list [.record [("properties", .record [("weight", .record [])])]]),
        ("required", .list [.str "weight"])],
      .record [("title", .str "Box"), ("maxProperties", .int 4)]]),
    (.str "properties", .record [("label", .record [("type", .str "string")])]),
    (.str "required", .list [.str "label"]),
    (.str "oneOf", .list []),
    (.str "anyOf", .list [
      .record [("maxProperties", .int 2), ("required", .list [.str "id"])],
      .record [("minProperties", .int 1)]])]

/-- What its parts contribute. -/
def parcelContributions : List Fields :=
  [[(.str "maxProperties", .int 2), (.str "required", .list [.str "id"])],
    [(.str "properties", .record [("weight", .record [])]),
      (.str "required", .list [.str "weight"])],
    [(.str "title", .str "Box"), (.str "maxProperties", .int 4)],
    [(.str "title", .str "Parcel"),
      (.str "properties", .record [("label", .record [("type", .str "string")])]),
      (.str "required", .list [.str "label"])]]

theorem compose_unites_parcelSchema :
    (∀ node ∈ subschemas (.map parcelSchema), Entries.Apart node) ∧
      List.Forall₂ (fun v r => compose v = .ok (.map r)) (contributors parcelSchema)
        parcelContributions ∧
      (∀ r ∈ parcelContributions, IsObjectSchema r) ∧
      ∃ result, compose (.map parcelSchema) = .ok (.map result) ∧
        Unites parcelContributions result := by
  have hapart : ∀ node ∈ subschemas (.map parcelSchema), Entries.Apart node := by decide +kernel
  have hrow : List.Forall₂ (fun v r => compose v = .ok (.map r)) (contributors parcelSchema)
      parcelContributions := .cons rfl (.cons rfl (.cons rfl (.cons rfl .nil)))
  have hobject : ∀ r ∈ parcelContributions, IsObjectSchema r := by decide +kernel
  exact ⟨hapart, hrow, hobject, compose_unites hapart hrow hobject⟩

end NodeForge.Schema
