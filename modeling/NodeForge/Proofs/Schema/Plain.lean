import NodeForge.Proofs.Schema.Composition

/-!
# Composing a schema once

A schema is plain when no node of it has a combinator. A plain schema is composed to itself
(`compose_of_isPlain`), and what a schema is composed to is plain, so composing twice is composing
once (`compose_idempotent`). All that this takes is that the combined schemas are mappings.

Composed pieces are merged after the schemas in them were composed. Merging brings no combinator
back, since all that comes to stand at a node stood at a node before: a list of items is put behind
a list of items, a mapping is merged into a mapping at the same place, and of a mapping and a value
of another kind only one is kept (`plain_mergeOver`).
-/

namespace NodeForge.Schema

/-- Whether what a schema combines are mappings: the members of `allOf`, and the first alternatives
of `oneOf` and `anyOf`. -/
def CombinesMappings (node : Fields) : Prop :=
  ∀ e ∈ node, isCombinator e.1 = true → ∀ v ∈ inner e, v.fields?.isSome = true

instance (node : Fields) : Decidable (CombinesMappings node) := by
  unfold CombinesMappings
  infer_instance

/-- Whether no node of a schema has a combinator. -/
def IsPlain (v : Value) : Prop := ∀ node ∈ subschemas v, ∀ e ∈ node, isCombinator e.1 = false

instance (v : Value) : Decidable (IsPlain v) := by
  unfold IsPlain
  infer_instance

/-- Whether a value is plain under a key: the key is no combinator, and the schemas in the value are
plain. -/
def IsPlainUnder (key : Scalar) (v : Value) : Prop :=
  isCombinator key = false ∧ ∀ w ∈ inner (key, v), IsPlain w

theorem isPlain_of_fields?_eq_none {v : Value} (h : v.fields? = none) : IsPlain v := by
  rw [IsPlain, subschemas_of_fields?_eq_none h]
  exact List.forall_mem_nil _

theorem isPlain_map_iff {schema : Fields} :
    IsPlain (.map schema) ↔ ∀ e ∈ schema, IsPlainUnder e.1 e.2 := by
  constructor
  · intro h e he
    refine ⟨h schema (mem_subschemas_map.2 (.inl rfl)) e he, fun w hw node hnode => ?_⟩
    exact h node (mem_subschemas_map.2 (.inr ⟨e, he, w, hw, hnode⟩))
  · intro h node hnode
    rcases mem_subschemas_map.1 hnode with rfl | ⟨e, he, w, hw, hnode⟩
    · exact fun e he => (h e he).1
    · exact (h e he).2 w hw node hnode

theorem IsPlainUnder.congr {k k' : Scalar} {v : Value} (hk : (k == k') = true)
    (h : IsPlainUnder k v) : IsPlainUnder k' v := by
  have hword : Keyword.ofKey? k = Keyword.ofKey? k' := ofKey?_congr hk
  have hcombinator : isCombinator k = isCombinator k' := by rw [isCombinator, isCombinator, hword]
  have hinner : inner (k, v) = inner (k', v) := by
    unfold inner
    simp only [hword]
  rwa [IsPlainUnder, hcombinator, hinner] at h

/-! ### The schemas under a key -/

theorem inner_map_of_properties {k : Scalar} (hk : Keyword.ofKey? k = some .properties)
    (ps : Fields) : inner (k, .map ps) = Entries.values ps := by
  simp only [inner, hk]

theorem inner_map_of_schema {k : Scalar}
    (hk : Keyword.ofKey? k = some .items ∨ Keyword.ofKey? k = some .additionalProperties)
    (es : Fields) : inner (k, .map es) = [.map es] := by
  rcases hk with hk | hk <;> simp only [inner, hk]

theorem inner_list_of_items {k : Scalar} (hk : Keyword.ofKey? k = some .items)
    (xs : List Value) : inner (k, .list xs) = xs := by
  simp only [inner, hk]

/-- The other values hold no schemas. -/
theorem inner_eq_nil {k : Scalar} (hk : isCombinator k = false) {v : Value}
    (hfields : v.fields? = none) (hitems : v.items? = none ∨ Keyword.ofKey? k ≠ some .items) :
    inner (k, v) = [] := by
  unfold inner
  split <;> simp_all [isCombinator, Keyword.isCombinator, Value.fields?, Value.items?]

theorem inner_map_eq_nil {k : Scalar} (hk : isCombinator k = false)
    (hnames : Keyword.ofKey? k ≠ some .properties)
    (hschema : ¬ (Keyword.ofKey? k = some .items ∨ Keyword.ofKey? k = some .additionalProperties))
    (es : Fields) : inner (k, .map es) = [] := by
  rw [not_or] at hschema
  unfold inner
  split <;> simp_all [isCombinator, Keyword.isCombinator]

/-! ### Copies -/

theorem inner_copied (k : Scalar) (v : Value) :
    inner (k, v.copied) = (inner (k, v)).map Value.copied := by
  have hfirst : firstItem? v.copied = (firstItem? v).map Value.copied := by
    rw [firstItem?, firstItem?, Value.items?_copied]
    cases v.items? with
    | none => rfl
    | some xs => cases xs <;> rfl
  unfold inner
  dsimp only
  cases Keyword.ofKey? k with
  | none => rfl
  | some word =>
    cases word with
    | oneOf | anyOf => simp only [hfirst, Option.toList_map]
    | properties =>
      cases v with
      | map ps =>
        simp only [Value.copied_map, Value.copiedFields_eq_map, Entries.values, List.map_map]
        rfl
      | _ => rfl
    | allOf | items | additionalProperties =>
      cases v <;>
        simp only [Value.copied_list, Value.copied_map, List.map_cons, List.map_nil] <;> rfl

theorem isPlain_copied {v : Value} (h : IsPlain v) : IsPlain v.copied := by
  induction v using schema_induction with
  | other v hv =>
    refine isPlain_of_fields?_eq_none ?_
    rw [Value.fields?_copied, hv, Option.map_none]
  | node schema ih =>
    rw [isPlain_map_iff] at h
    rw [Value.copied_map, isPlain_map_iff]
    intro e he
    obtain ⟨v, hmem, hcopy⟩ := Value.mem_copiedFields.1 he
    refine ⟨(h _ hmem).1, ?_⟩
    rw [hcopy, inner_copied, List.forall_mem_map]
    exact fun w hw => ih _ hmem w hw ((h _ hmem).2 w hw)

/-! ### Merging -/

/-- Two plain mappings, merged where this keeps the values plain under their keys. -/
theorem isPlain_mergeFields {base extra : Fields} (hbase : IsPlain (.map base))
    (hextra : IsPlain (.map extra))
    (hmeet : ∀ e ∈ extra, ∀ k u, IsPlainUnder k u → IsPlainUnder k e.2 →
      IsPlainUnder k (mergeOver u e.2)) : IsPlain (.map (mergeFields base extra)) := by
  rw [isPlain_map_iff] at hbase hextra ⊢
  exact forall_mem_mergeFields (P := IsPlainUnder) IsPlainUnder.congr hbase hextra
    fun e he u hu => hmeet e he e.1 u hu (hextra e he)

theorem exists_mergeOver_map (u : Value) (es : Fields) : ∃ fs, mergeOver u (.map es) = .map fs := by
  cases hu : u.fields? with
  | none => exact ⟨es, mergeOver_map_of_ne hu es⟩
  | some bs =>
    rw [Value.fields?_eq_some.1 hu]
    exact ⟨_, mergeOver_map bs es⟩

/-- A list keeps its members and those of a list that it meets. -/
theorem exists_mergeOver_list (u : Value) (ys : List Value) :
    ∃ zs, mergeOver u (.list ys) = .list zs ∧ ∀ z ∈ zs, z ∈ ys ∨ ∃ xs, u = .list xs ∧ z ∈ xs := by
  cases hu : u.items? with
  | none => exact ⟨ys, mergeOver_list_of_ne hu ys, fun z hz => .inl hz⟩
  | some xs =>
    rw [Value.items?_eq_some] at hu
    refine ⟨xs ++ ys, by rw [hu, mergeOver_list], fun z hz => ?_⟩
    rcases List.mem_append.1 hz with hz | hz
    · exact .inr ⟨xs, hu, hz⟩
    · exact .inl hz

theorem isPlainUnder_mergeOver_list {k : Scalar} {u : Value} {ys : List Value}
    (hu : IsPlainUnder k u) (hv : IsPlainUnder k (.list ys)) :
    IsPlainUnder k (mergeOver u (.list ys)) := by
  obtain ⟨zs, hzs, hmem⟩ := exists_mergeOver_list u ys
  refine ⟨hu.1, ?_⟩
  rw [hzs]
  by_cases hk : Keyword.ofKey? k = some .items
  · rw [inner_list_of_items hk]
    intro z hz
    rcases hmem z hz with hz | ⟨xs, rfl, hz⟩
    · exact hv.2 z (by rwa [inner_list_of_items hk])
    · exact hu.2 z (by rwa [inner_list_of_items hk])
  · rw [inner_eq_nil hu.1 rfl (.inr hk)]
    exact List.forall_mem_nil _

/-- A mapping that meets another value under a key. Under `properties` the schemas in it meet one
by one, and under `items` and `additionalProperties` it is a schema itself. -/
theorem isPlainUnder_mergeOver_map {k : Scalar} {u : Value} {es : Fields}
    (hself : ∀ u, IsPlain u → IsPlain (.map es) → IsPlain (mergeOver u (.map es)))
    (hvalues : ∀ e ∈ es, ∀ u, IsPlain u → IsPlain e.2 → IsPlain (mergeOver u e.2))
    (hu : IsPlainUnder k u) (hv : IsPlainUnder k (.map es)) :
    IsPlainUnder k (mergeOver u (.map es)) := by
  refine ⟨hu.1, ?_⟩
  by_cases hnames : Keyword.ofKey? k = some .properties
  · have hplain {ps : Fields} : (∀ w ∈ inner (k, .map ps), IsPlain w) ↔ ∀ e ∈ ps, IsPlain e.2 := by
      rw [inner_map_of_properties hnames, Entries.values, List.forall_mem_map]
    cases hfields : u.fields? with
    | none =>
      rw [mergeOver_map_of_ne hfields]
      exact hv.2
    | some bs =>
      rw [Value.fields?_eq_some] at hfields
      subst hfields
      have hbs : ∀ e ∈ Value.copiedFields bs, IsPlain e.2 := by
        intro e he
        obtain ⟨v, hmem, hcopy⟩ := Value.mem_copiedFields.1 he
        rw [hcopy]
        exact isPlain_copied (hplain.1 hu.2 _ hmem)
      have hes : ∀ e ∈ es, IsPlain e.2 := hplain.1 hv.2
      rw [mergeOver_map, hplain]
      exact forall_mem_mergeFields (P := fun _ w => IsPlain w) (fun _ h => h) hbs hes
        fun e he u hu => hvalues e he u hu (hes e he)
  by_cases hschema : Keyword.ofKey? k = some .items ∨ Keyword.ofKey? k = some .additionalProperties
  · have hplain {fs : Fields} : (∀ w ∈ inner (k, .map fs), IsPlain w) ↔ IsPlain (.map fs) := by
      rw [inner_map_of_schema hschema, List.forall_mem_singleton]
    have hplainU : IsPlain u := by
      cases hfields : u.fields? with
      | none => exact isPlain_of_fields?_eq_none hfields
      | some bs =>
        rw [Value.fields?_eq_some] at hfields
        subst hfields
        exact hplain.1 hu.2
    obtain ⟨fs, hfs⟩ := exists_mergeOver_map u es
    have hmeet := hself u hplainU (hplain.1 hv.2)
    rw [hfs] at hmeet ⊢
    exact hplain.2 hmeet
  · obtain ⟨fs, hfs⟩ := exists_mergeOver_map u es
    rw [hfs, inner_map_eq_nil hu.1 hnames hschema]
    exact List.forall_mem_nil _

/-- Merging plain schemas makes a plain schema, and so it does under each key. Both are said at
once, since under `properties` a value is no schema but holds schemas. -/
theorem plain_mergeOver (v : Value) :
    (∀ u, IsPlain u → IsPlain v → IsPlain (mergeOver u v)) ∧
      ∀ k u, IsPlainUnder k u → IsPlainUnder k v → IsPlainUnder k (mergeOver u v) := by
  induction v using Value.parts_induction with
  | list ys =>
    refine ⟨fun u hu hv => ?_, fun k u hu hv => isPlainUnder_mergeOver_list hu hv⟩
    obtain ⟨zs, hzs, -⟩ := exists_mergeOver_list u ys
    rw [hzs]
    exact isPlain_of_fields?_eq_none rfl
  | map es ih =>
    have hself : ∀ u, IsPlain u → IsPlain (.map es) → IsPlain (mergeOver u (.map es)) := by
      intro u hu hv
      cases hfields : u.fields? with
      | none => rwa [mergeOver_map_of_ne hfields]
      | some bs =>
        rw [Value.fields?_eq_some] at hfields
        subst hfields
        rw [mergeOver_map]
        have hbase : IsPlain (.map (Value.copiedFields bs)) := by
          rw [← Value.copied_map]
          exact isPlain_copied hu
        exact isPlain_mergeFields hbase hv fun e he k u => (ih e he).2 k u
    exact ⟨hself, fun k u => isPlainUnder_mergeOver_map hself fun e he => (ih e he).1⟩
  | _ => exact ⟨fun u _ hv => by rwa [mergeOver_of_single rfl rfl],
      fun k u _ hv => by rwa [mergeOver_of_single rfl rfl]⟩

theorem isPlain_joined {base extra : Fields} (hbase : IsPlain (.map base))
    (hextra : IsPlain (.map extra)) : IsPlain (.map (joined base extra)) := by
  have hbase' := isPlain_copied hbase
  have hextra' := isPlain_copied hextra
  rw [Value.copied_map] at hbase' hextra'
  exact isPlain_mergeFields hbase' hextra' fun e _ k u => (plain_mergeOver e.2).2 k u

theorem isPlain_foldl_joined {base : Fields} {members : List Fields} (hbase : IsPlain (.map base))
    (h : ∀ m ∈ members, IsPlain (.map m)) : IsPlain (.map (members.foldl joined base)) := by
  induction members generalizing base with
  | nil => exact hbase
  | cons m members ih =>
    refine ih (isPlain_joined hbase (h m List.mem_cons_self)) fun m' hm' => ?_
    exact h m' (List.mem_cons_of_mem _ hm')

theorem isPlain_written {base : Option Fields} {schema : Fields}
    (hbase : ∀ b ∈ base, IsPlain (.map b)) (h : IsPlain (.map schema)) :
    IsPlain (.map (written base schema)) := by
  cases base with
  | none => exact h
  | some b => exact isPlain_joined (hbase b rfl) h

/-! ### Composing a plain schema -/

theorem composeEntry_eq_self {e : Scalar × Value} (hcombinator : isCombinator e.1 = false)
    (h : ∀ w ∈ inner e, compose w = .ok w) : composeEntry e = .ok e := by
  obtain ⟨k, v⟩ := e
  have hunder : composeUnder (Keyword.ofKey? k) v = .ok v := by
    unfold composeUnder
    split
    case h_1 ps hk =>
      rw [inner_map_of_properties hk, Entries.values, List.forall_mem_map] at h
      have hps : (ps.mapM fun p => do return (p.1, ← compose p.2)) = Except.ok ps := by
        refine Outcome.mapM_eq_self fun p hp => ?_
        rw [h p hp]
        rfl
      rw [hps]
      rfl
    case h_2 xs hk =>
      rw [inner_list_of_items hk] at h
      rw [Outcome.mapM_eq_self h]
      rfl
    case h_3 es hk =>
      rw [inner_map_of_schema (.inl hk)] at h
      exact h _ List.mem_cons_self
    case h_4 es hk =>
      rw [inner_map_of_schema (.inr hk)] at h
      exact h _ List.mem_cons_self
    case h_5 => rfl
  rw [composeEntry, hunder]
  rfl

/-- A plain schema is composed to itself. -/
theorem compose_of_isPlain {v : Value} (h : IsPlain v) : compose v = .ok v := by
  induction v using schema_induction with
  | other v hv => exact compose_of_fields?_eq_none hv
  | node schema ih =>
    rw [isPlain_map_iff] at h
    have hentries : schema.mapM composeEntry = .ok schema := by
      refine Outcome.mapM_eq_self fun e he => composeEntry_eq_self (h e he).1 fun w hw => ?_
      exact ih e he w hw ((h e he).2 w hw)
    rw [compose_map_of_plain fun e he => (h e he).1, hentries]
    rfl

/-! ### Composing any schema -/

/-- What composing makes of a schema whose combined schemas are mappings. -/
structure IsComposed (v w : Value) : Prop where
  result : compose v = .ok w
  plain : IsPlain w
  mapping : v.fields?.isSome = true → w.fields?.isSome = true

/-- An entry beside the combinators is plain after composing if the schemas in it are. -/
theorem exists_composeEntry {e : Scalar × Value} (hcombinator : isCombinator e.1 = false)
    (h : ∀ v ∈ inner e, ∃ w, IsComposed v w) :
    ∃ w, composeEntry e = .ok (e.1, w) ∧ IsPlainUnder e.1 w := by
  obtain ⟨k, v⟩ := e
  suffices hunder : ∃ w, composeUnder (Keyword.ofKey? k) v = .ok w ∧
      ∀ x ∈ inner (k, w), IsPlain x by
    obtain ⟨w, hw, hplain⟩ := hunder
    refine ⟨w, ?_, hcombinator, hplain⟩
    rw [composeEntry, hw]
    rfl
  have hschema {es : Fields} (hk : Keyword.ofKey? k = some .items ∨
      Keyword.ofKey? k = some .additionalProperties)
      (h : ∀ v ∈ inner (k, .map es), ∃ w, IsComposed v w) :
      ∃ w, compose (.map es) = .ok w ∧ ∀ x ∈ inner (k, w), IsPlain x := by
    rw [inner_map_of_schema hk, List.forall_mem_singleton] at h
    obtain ⟨w, hw⟩ := h
    obtain ⟨fs, hfs⟩ := Option.isSome_iff_exists.1 (hw.mapping rfl)
    rw [Value.fields?_eq_some] at hfs
    subst hfs
    refine ⟨.map fs, hw.result, ?_⟩
    rw [inner_map_of_schema hk, List.forall_mem_singleton]
    exact hw.plain
  unfold composeUnder
  split
  case h_1 ps hk =>
    rw [inner_map_of_properties hk, Entries.values, List.forall_mem_map] at h
    have hps : ∃ qs, (ps.mapM fun p => do return (p.1, ← compose p.2)) = Except.ok qs ∧
        ∀ q ∈ qs, IsPlain q.2 := by
      refine Outcome.exists_mapM_forall fun p hp => ?_
      obtain ⟨w, hw⟩ := h p hp
      exact ⟨(p.1, w), Outcome.bind_eq_ok.2 ⟨w, hw.result, rfl⟩, hw.plain⟩
    obtain ⟨qs, hqs, hplain⟩ := hps
    refine ⟨.map qs, by rw [hqs]; rfl, ?_⟩
    rwa [inner_map_of_properties hk, Entries.values, List.forall_mem_map]
  case h_2 xs hk =>
    rw [inner_list_of_items hk] at h
    have hxs : ∃ ys, xs.mapM compose = .ok ys ∧ ∀ y ∈ ys, IsPlain y := by
      refine Outcome.exists_mapM_forall fun x hx => ?_
      obtain ⟨w, hw⟩ := h x hx
      exact ⟨w, hw.result, hw.plain⟩
    obtain ⟨ys, hys, hplain⟩ := hxs
    refine ⟨.list ys, by rw [hys]; rfl, ?_⟩
    rwa [inner_list_of_items hk]
  case h_3 es hk => exact hschema (.inl hk) h
  case h_4 es hk => exact hschema (.inr hk) h
  case h_5 v _ _ hnames hlist hitems hmap =>
    refine ⟨v, rfl, ?_⟩
    have hnil : inner (k, v) = [] := by
      unfold inner
      split <;> simp_all [isCombinator, Keyword.isCombinator]
    rw [hnil]
    exact List.forall_mem_nil _

/-- Whether a schema is composed to a plain mapping. -/
def ComposesTo (v : Value) (m : Fields) : Prop := compose v = .ok (.map m) ∧ IsPlain (.map m)

theorem exists_plainMembers {held : Option (List Value)}
    (h : ∀ xs ∈ held, ∀ x ∈ xs, ∃ m, ComposesTo x m) : ∃ members : Option (List Fields),
      held.map (List.map compose) = members.map (List.map fun m => .ok (.map m)) ∧
        ∀ ms ∈ members, ∀ m ∈ ms, IsPlain (.map m) := by
  cases held with
  | none => exact ⟨none, rfl, nofun⟩
  | some xs =>
    obtain ⟨ms, hms⟩ := Outcome.exists_forall₂ (h xs rfl)
    refine ⟨some ms, congrArg some ?_, fun ms' hms' m hm => ?_⟩
    · exact Outcome.map_eq_map_of_forall₂ (fun _ _ hxm => hxm.1) hms
    · rw [Option.mem_some] at hms'
      subst hms'
      obtain ⟨x, -, hxm⟩ := Outcome.exists_left_of_mem hms hm
      exact hxm.2

theorem exists_plainAlternative {held : Option Value} (h : ∀ x ∈ held, ∃ m, ComposesTo x m) :
    ∃ alternative : Option Fields,
      held.map compose = alternative.map (fun a => .ok (.map a)) ∧
        ∀ a ∈ alternative, IsPlain (.map a) := by
  cases held with
  | none => exact ⟨none, rfl, nofun⟩
  | some x =>
    obtain ⟨a, ha, hplain⟩ := h x rfl
    refine ⟨some a, congrArg some ha, fun a' ha' => ?_⟩
    rwa [← Option.mem_some.1 ha']

theorem exists_isComposed (v : Value) (h : ∀ node ∈ subschemas v, CombinesMappings node) :
    ∃ w, IsComposed v w := by
  induction v using schema_induction with
  | other v hv =>
    refine ⟨v, compose_of_fields?_eq_none hv, isPlain_of_fields?_eq_none hv, id⟩
  | node schema ih =>
    have hinner : ∀ e ∈ schema, ∀ v ∈ inner e, ∃ w, IsComposed v w := by
      intro e he v hv
      refine ih e he v hv fun node hnode => ?_
      exact h node (mem_subschemas_map.2 (.inr ⟨e, he, v, hv, hnode⟩))
    -- What is combined is a mapping, so it is composed to a mapping and can be merged.
    have hcombined : ∀ e ∈ schema, isCombinator e.1 = true → ∀ v ∈ inner e,
        ∃ m, ComposesTo v m := by
      intro e he hcombinator v hv
      have hmapping := h schema (mem_subschemas_map.2 (.inl rfl)) e he hcombinator v hv
      obtain ⟨w, hw⟩ := hinner e he v hv
      obtain ⟨m, hm⟩ := Option.isSome_iff_exists.1 (hw.mapping hmapping)
      rw [Value.fields?_eq_some] at hm
      exact ⟨m, hm ▸ hw.result, hm ▸ hw.plain⟩
    have hown : ∃ own, (siblings schema).mapM composeEntry = .ok own ∧
        ∀ e ∈ own, IsPlainUnder e.1 e.2 := by
      refine Outcome.exists_mapM_forall fun e he => ?_
      rw [mem_siblings] at he
      obtain ⟨w, hw, hplain⟩ := exists_composeEntry he.2 (hinner e he.1)
      exact ⟨(e.1, w), hw, hplain⟩
    have hallOf : ∀ xs ∈ held? Value.items? .allOf schema, ∀ x ∈ xs, ∃ m, ComposesTo x m := by
      intro xs hheld x hx
      obtain ⟨e, he, hcombinator, hmem⟩ := exists_inner_of_member hheld hx
      exact hcombined e he hcombinator x hmem
    have hfirst : ∀ x ∈ alternative? schema, ∃ m, ComposesTo x m := by
      intro x hx
      obtain ⟨e, he, hcombinator, hmem⟩ := exists_inner_of_alternative hx
      exact hcombined e he hcombinator x hmem
    obtain ⟨own, hown, hownPlain⟩ := hown
    obtain ⟨members, hmembers, hmembersPlain⟩ := exists_plainMembers hallOf
    obtain ⟨alternative, halternative, halternativePlain⟩ := exists_plainAlternative hfirst
    refine ⟨_, compose_map_of_pieces hown hmembers halternative, ?_, fun _ => rfl⟩
    refine isPlain_written halternativePlain (isPlain_written ?_ (isPlain_map_iff.2 hownPlain))
    intro b hb
    obtain ⟨ms, hms, rfl⟩ := Option.mem_map.1 hb
    exact isPlain_foldl_joined (isPlain_map_iff.2 (List.forall_mem_nil _)) (hmembersPlain ms hms)

/-- **Composing a schema twice is composing it once.** Where the combined schemas are mappings, at
every node, a schema is composed to one that has no combinator at any node, and this one is composed
to itself. -/
theorem compose_idempotent (v : Value) (h : ∀ node ∈ subschemas v, CombinesMappings node) :
    ∃ w, compose v = .ok w ∧ IsPlain w ∧ compose w = .ok w := by
  obtain ⟨w, hw⟩ := exists_isComposed v h
  exact ⟨w, hw.result, hw.plain, compose_of_isPlain hw.plain⟩

/-- The schema of a delivery: composed members in `allOf`, alternatives within properties and items,
and properties beside them that a member has, too. -/
def deliverySchema : Value :=
  .record [
    ("allOf", .list [
      .record [("properties", .record [
        ("goods", .record [("items", .list [
          .record [("anyOf", .list [.record [("type", .str "string")], .null])]])])])],
      .record [
        ("oneOf", .list [.record [("additionalProperties", .record [("allOf", .list [
          .record [("type", .str "object")], .record [("nullable", .bool true)]])])]]),
        ("required", .list [.str "goods"])]]),
    ("properties", .record [
      ("goods", .record [("items", .list [.record [("type", .str "integer")]])]),
      ("note", .record [("oneOf", .list [.record [("type", .str "string")]])])])]

theorem compose_idempotent_deliverySchema :
    (∀ node ∈ subschemas deliverySchema, CombinesMappings node) ∧
      ∃ w, compose deliverySchema = .ok w ∧ IsPlain w ∧ compose w = .ok w := by
  have hmappings : ∀ node ∈ subschemas deliverySchema, CombinesMappings node := by
    decide +kernel
  exact ⟨hmappings, compose_idempotent deliverySchema hmappings⟩

end NodeForge.Schema
