import NodeForge.Proofs.Schema.MergedRows

/-!
# Members of `allOf` in any grouping

The members of an `allOf` list are merged in their order. Some of them can be put into an `allOf`
list of their own first, and so on, at any depth: a `Grouping` is such a tree, with the members as
its leaves. Merging is associative, so the grouping does not matter (`merge_assoc_and_regroup`).

What has to fit together are the composed members, as these are what is merged. It is not enough
that the members fit as they stand: a combinator in one of them can bring up a value that is in the
way of the others (`compose_grouped_ne`).
-/

namespace NodeForge.Schema

/-! ### A list in a schema -/

/-- A schema with an `allOf` list. -/
def withAllOf (before behind : Fields) (xs : List Value) : Fields :=
  before ++ (.str "allOf", .list xs) :: behind

section WithAllOf

variable {before behind : Fields}

theorem siblings_withAllOf (xs : List Value) :
    siblings (withAllOf before behind xs) = siblings before ++ siblings behind := by
  have hallOf : isCombinator (.str "allOf") = true := by decide
  rw [siblings, withAllOf, List.filter_append, ← siblings, ← siblings, siblings_cons, if_pos hallOf]

theorem alternative?_withAllOf (xs : List Value) :
    alternative? (withAllOf before behind xs) = alternative? (before ++ behind) := by
  have hother {word : Keyword} (hword : Keyword.ofKey? (.str "allOf") ≠ some word) :
      held? firstItem? word (withAllOf before behind xs) =
        held? firstItem? word (before ++ behind) := by
    rw [withAllOf, held?_append, held?_append, held?_cons, if_neg hword, Option.none_or]
  rw [alternative?, hother (by decide), hother (by decide), alternative?]

theorem held?_withAllOf (xs : List Value) : held? Value.items? .allOf (withAllOf before behind xs) =
    (held? Value.items? .allOf before).or (some xs) := by
  rw [withAllOf, held?_append, held?_cons, if_pos (by decide), Value.items?, Option.some_or]

end WithAllOf

/-! ### Groupings -/

/-- A grouping of schemas into nested `allOf` lists. -/
inductive Grouping where
  | member (schema : Value)
  | group (parts : List Grouping)

namespace Grouping

mutual

/-- The schema that a grouping is written as. -/
def schema : Grouping → Value
  | .member v => v
  | .group parts => .record [("allOf", .list (schemas parts))]

/-- The schemas that groupings are written as. -/
def schemas : List Grouping → List Value
  | [] => []
  | g :: gs => g.schema :: schemas gs

end

mutual

/-- The grouped schemas in their order. -/
def members : Grouping → List Value
  | .member v => [v]
  | .group parts => flat parts

/-- The schemas of a row of groupings, without the grouping. -/
def flat : List Grouping → List Value
  | [] => []
  | g :: gs => g.members ++ flat gs

end

end Grouping

/-! ### Groupings that are composed -/

/-- The entries of a composed schema, which has to be a mapping to be merged. -/
def composedFields (v : Value) : Except Fault Fields := do (← compose v).fields

theorem composedFields_eq_ok {v : Value} {r : Fields} :
    composedFields v = .ok r ↔ compose v = .ok (.map r) := by
  rw [composedFields, Outcome.bind_eq_ok]
  constructor
  · rintro ⟨w, hw, hr⟩
    rw [hw, fields_eq_ok.1 hr]
  · exact fun h => ⟨.map r, h, rfl⟩

theorem merge_map_compose (base : Fields) (v : Value) :
    (do merge (.map base) (← compose v)) =
      (fun es => Value.map (joined base es)) <$> composedFields v := by
  rw [composedFields]
  cases compose v with
  | error e => rfl
  | ok w =>
    show merge (.map base) w = _ <$> w.fields
    cases hw : w.fields? with
    | none =>
      have hfail : w.fields = .error .noSuchMember := Outcome.orFault_eq_error.2 ⟨hw, rfl⟩
      rw [merge, hfail]
      rfl
    | some es =>
      rw [Value.fields?_eq_some.1 hw]
      exact merge_map base es

/-- Schemas are merged if each of them is composed to a mapping, and only the first one that is not
stops it. -/
theorem mergeAll_map_compose (base : Fields) (xs : List Value) :
    mergeAll (.map base) (xs.map compose) =
      (fun row => Value.map (row.foldl joined base)) <$> xs.mapM composedFields := by
  induction xs generalizing base with
  | nil => rfl
  | cons x xs ih =>
    rw [List.map_cons, mergeAll, ← bind_assoc, merge_map_compose, List.mapM_cons]
    cases composedFields x with
    | error e => rfl
    | ok es =>
      show mergeAll (.map (joined base es)) (xs.map compose) = _
      rw [ih]
      cases xs.mapM composedFields <;> rfl

/-- A schema that is only an `allOf` list. -/
theorem composedFields_allOf (xs : List Value) :
    composedFields (.record [("allOf", .list xs)]) =
      (fun row => joined (row.foldl joined []) []) <$> xs.mapM composedFields := by
  have hrecord : Value.record [("allOf", .list xs)] = .map (withAllOf [] [] xs) := rfl
  rw [hrecord, composedFields, compose_map, siblings_withAllOf, alternative?_withAllOf,
    held?_withAllOf]
  show (do
    let composed ← (do
      let upper ← (do merge (← mergeAll (.map []) (xs.map compose)) (.map []))
      Except.ok upper)
    composed.fields) = _
  rw [mergeAll_map_compose]
  cases xs.mapM composedFields with
  | error e => rfl
  | ok row =>
    show (do (← merge (.map (row.foldl joined [])) (.map [])).fields) = _
    rw [merge_map]
    rfl

mutual

/-- A grouping whose members can be merged can be composed. If they fit, it is composed to what they
are merged to. -/
theorem Grouping.exists_composedFields : ∀ (g : Grouping) {row : List Fields},
    g.members.mapM composedFields = .ok row →
    ∃ r, composedFields g.schema = .ok r ∧
      (Fits row → (Value.map r).settled = (Value.map (row.foldl joined [])).settled)
  | .member v, row, hrow => by
    rw [members, List.mapM_cons, List.mapM_nil] at hrow
    obtain ⟨r, hr, hrow⟩ := Outcome.bind_eq_ok.1 hrow
    obtain rfl : [r] = row := Except.ok.inj hrow
    exact ⟨r, hr, fun hfits => (settled_joined_nil (hfits.apart r List.mem_cons_self)).symm⟩
  | .group parts, row, hrow => by
    obtain ⟨rs, hrs, hsame⟩ := Grouping.exists_mapM_composedFields parts hrow
    refine ⟨joined (rs.foldl joined []) [], ?_, fun hfits => ?_⟩
    · rw [schema, composedFields_allOf, hrs]
      rfl
    · rw [settled_joined, settled_mergeOver_nil]
      exact hsame hfits.nil_cons

/-- It is the same whether the groupings of a row are merged, each composed for itself, or all
their members. -/
theorem Grouping.exists_mapM_composedFields : ∀ (gs : List Grouping) {row : List Fields},
    (Grouping.flat gs).mapM composedFields = .ok row →
    ∃ rs, (Grouping.schemas gs).mapM composedFields = .ok rs ∧ ∀ {base : Fields},
      Fits (base :: row) →
      (Value.map (rs.foldl joined base)).settled = (Value.map (row.foldl joined base)).settled
  | [], row, hrow => by
    obtain rfl : [] = row := Except.ok.inj hrow
    exact ⟨[], rfl, fun _ => rfl⟩
  | g :: gs, row, hrow => by
    rw [flat, List.mapM_append] at hrow
    obtain ⟨own, hown, hrow⟩ := Outcome.bind_eq_ok.1 hrow
    obtain ⟨rest, hrest, hrow⟩ := Outcome.bind_eq_ok.1 hrow
    obtain rfl : own ++ rest = row := Except.ok.inj hrow
    obtain ⟨r, hr, hsame⟩ := Grouping.exists_composedFields g hown
    obtain ⟨rs, hrs, hsames⟩ := Grouping.exists_mapM_composedFields gs hrest
    refine ⟨r :: rs, ?_, fun {base} hbase => ?_⟩
    · rw [schemas, List.mapM_cons, hr, hrs]
      rfl
    · -- the first grouping is merged onto the base, and the others onto what comes of it
      have hown : Fits (base :: own) := hbase.sublist (.cons_cons _ (List.sublist_append_left _ _))
      have hfirst : (Value.map (joined base r)).settled =
          (Value.map (own.foldl joined base)).settled := by
        rw [settled_joined, settled_foldl_joined hown]
        exact settled_mergeOver_congr rfl (hsame (fits_cons_iff.1 hown).2.2)
      rw [List.foldl_cons, List.foldl_append, ← hsames hbase.foldl_joined]
      exact settled_foldl_congr rs hfirst

end

mutual

/-- A grouping fails as the first member that cannot be merged. -/
theorem Grouping.composedFields_eq_error : ∀ (g : Grouping) {e : Fault},
    g.members.mapM composedFields = .error e → composedFields g.schema = .error e
  | .member v, e, h => by
    rw [members, List.mapM_cons, List.mapM_nil, Outcome.bind_eq_error] at h
    rcases h with h | ⟨r, -, h⟩
    · exact h
    · cases h
  | .group parts, e, h => by
    rw [schema, composedFields_allOf, Outcome.map_eq_error]
    exact Grouping.mapM_composedFields_eq_error parts h

theorem Grouping.mapM_composedFields_eq_error : ∀ (gs : List Grouping) {e : Fault},
    (Grouping.flat gs).mapM composedFields = .error e →
    (Grouping.schemas gs).mapM composedFields = .error e
  | [], e, h => by cases h
  | g :: gs, e, h => by
    rw [flat, List.mapM_append, Outcome.bind_eq_error] at h
    rw [schemas, List.mapM_cons, Outcome.bind_eq_error]
    rcases h with h | ⟨own, hown, h⟩
    · exact .inl (Grouping.composedFields_eq_error g h)
    · obtain ⟨r, hr, -⟩ := Grouping.exists_composedFields g hown
      rw [Outcome.bind_pure_eq_error] at h
      refine .inr ⟨r, hr, Outcome.bind_pure_eq_error.2 ?_⟩
      exact Grouping.mapM_composedFields_eq_error gs h

end

/-- What a row of groupings is merged to is what its members are merged to, if they fit. -/
theorem Grouping.settled_mapM_composedFields {gs : List Grouping}
    (h : ∀ row, (Grouping.flat gs).mapM composedFields = .ok row → Fits row) :
    (fun row => (Value.map (List.foldl joined [] row)).settled) <$>
        (Grouping.schemas gs).mapM composedFields =
      (fun row => (Value.map (List.foldl joined [] row)).settled) <$>
        (Grouping.flat gs).mapM composedFields := by
  cases hrow : (Grouping.flat gs).mapM composedFields with
  | error e =>
    rw [Grouping.mapM_composedFields_eq_error gs hrow]
  | ok row =>
    obtain ⟨rs, hrs, hsame⟩ := Grouping.exists_mapM_composedFields gs hrow
    rw [hrs]
    exact congrArg Except.ok (hsame (h row hrow).nil_cons)

/-! ### A schema with a list of groupings -/

section WithAllOf

variable {before behind : Fields}

theorem settled_merge_congr {u u' : Fields} (b : Value)
    (h : (Value.map u).settled = (Value.map u').settled) :
    Value.settled <$> merge b (.map u) = Value.settled <$> merge b (.map u') := by
  cases hb : b.fields? with
  | some bs =>
    rw [Value.fields?_eq_some] at hb
    rw [hb, merge_map, merge_map]
    exact congrArg Except.ok (settled_joined_congr rfl h)
  | none =>
    -- then it only counts whether there is something to write
    have hempty : u.isEmpty = u'.isEmpty := by
      rw [Value.settled_map, Value.settled_map, Value.map.injEq] at h
      have hkeys : Entries.keys u = Entries.keys u' := by
        rw [← Value.keys_settledFields, h, Value.keys_settledFields]
      simpa [Entries.keys] using congrArg List.isEmpty hkeys
    rw [merge_of_fields?_eq_none hb, merge_of_fields?_eq_none hb, hempty]

theorem settled_writeOver_congr {u u' : Fields} (base : Option (Except Fault Value))
    (h : (Value.map u).settled = (Value.map u').settled) :
    Value.settled <$> writeOver base (.map u) = Value.settled <$> writeOver base (.map u') := by
  cases base with
  | none => exact congrArg Except.ok h
  | some c =>
    cases c with
    | error e => rfl
    | ok b => exact settled_merge_congr b h

/-- Two lists of members make the same schema if the same comes of merging them. -/
theorem settled_compose_withAllOf {xs ys : List Value}
    (h : (fun row => (Value.map (List.foldl joined [] row)).settled) <$>
        xs.mapM composedFields =
      (fun row => (Value.map (List.foldl joined [] row)).settled) <$>
        ys.mapM composedFields) :
    Value.settled <$> compose (.map (withAllOf before behind xs)) =
      Value.settled <$> compose (.map (withAllOf before behind ys)) := by
  rw [compose_map, compose_map, siblings_withAllOf, siblings_withAllOf, alternative?_withAllOf,
    alternative?_withAllOf, held?_withAllOf, held?_withAllOf]
  cases held? Value.items? .allOf before with
  | some zs =>
    -- a list that stands in front is the one that counts
    rfl
  | none =>
    cases (siblings before ++ siblings behind).mapM composeEntry with
    | error e => rfl
    | ok own =>
      rw [Option.none_or, Option.none_or, Option.map_some, Option.map_some, mergeAll_map_compose,
        mergeAll_map_compose]
      cases hrow : xs.mapM composedFields with
      | error e =>
        rw [hrow] at h
        rw [Outcome.map_eq_error.1 h.symm]
      | ok row =>
        rw [hrow] at h
        obtain ⟨row', hrow', hsame⟩ := Outcome.map_eq_ok.1 h.symm
        rw [hrow']
        show Value.settled <$> (do writeOver _ (← merge (.map (row.foldl joined [])) (.map own))) =
          Value.settled <$> (do writeOver _ (← merge (.map (row'.foldl joined [])) (.map own)))
        rw [merge_map, merge_map]
        exact settled_writeOver_congr _ (settled_joined_congr hsame.symm rfl)

end WithAllOf

/-- **Merging is associative, and grouping does not matter.** Three mappings that hold values of one
kind wherever two of them hold a value are merged to the same mapping from the left and from the
right. An `allOf` list whose members are composed to such mappings can be grouped into nested
`allOf` lists in any way: the schema that it stands in is composed to the same one, or fails in the
same way. Mappings are the same with the same keys in the same order; only the members of sets may
come up in another order. -/
theorem merge_assoc_and_regroup :
    (∀ a b c : Fields, Fits [a, b, c] → ∃ l r,
      (do merge (← merge (.map a) (.map b)) (.map c)) = .ok l ∧
      (do merge (.map a) (← merge (.map b) (.map c))) = .ok r ∧ l.settled = r.settled) ∧
    ∀ (before behind : Fields) (groups : List Grouping),
      (∀ v ∈ Grouping.flat groups, KeysApart v) →
      ((Grouping.flat groups).Pairwise fun u v => ∀ r s, compose u = .ok (.map r) →
        compose v = .ok (.map s) → Compatible (.map r) (.map s)) →
      Value.settled <$> compose (.map (withAllOf before behind (Grouping.schemas groups))) =
        Value.settled <$> compose (.map (withAllOf before behind (Grouping.flat groups))) := by
  constructor
  · intro a b c hfits
    obtain ⟨ha, hcompatible, hrest⟩ := fits_cons_iff.1 hfits
    obtain ⟨hb, hbc, -⟩ := fits_cons_iff.1 hrest
    refine ⟨.map (joined (joined a b) c), .map (joined a (joined b c)), ?_, ?_, ?_⟩
    · rw [merge_map]
      exact merge_map _ _
    · rw [merge_map]
      exact merge_map _ _
    · calc (Value.map (joined (joined a b) c)).settled
          = (mergeOver (mergeOver (.map a) (.map b)) (.map c)).settled := by
            rw [settled_joined]
            exact settled_mergeOver_congr (settled_joined a b) rfl
        _ = (mergeOver (.map a) (mergeOver (.map b) (.map c))).settled :=
            settled_mergeOver_assoc (hcompatible b (by simp)) (hcompatible c (by simp))
              (hbc c (by simp)) ha hb (hfits.apart c (by simp))
        _ = (Value.map (joined a (joined b c))).settled := by
            rw [settled_joined]
            exact settled_mergeOver_congr rfl (settled_joined b c).symm
  · intro before behind groups hkeys hcompatible
    refine settled_compose_withAllOf (Grouping.settled_mapM_composedFields fun row hrow => ?_)
    have hmembers := Outcome.mapM_eq_ok.1 hrow
    refine ⟨fun r hr => ?_, ?_⟩
    · obtain ⟨v, hv, hcompose⟩ := Outcome.exists_left_of_mem hmembers hr
      exact keysApart_compose (hkeys v hv) (composedFields_eq_ok.1 hcompose)
    · refine Outcome.pairwise_of_forall₂ (fun u v r s hr hs h => ?_) hmembers hcompatible
      exact h r s (composedFields_eq_ok.1 hr) (composedFields_eq_ok.1 hs)

/-- The part of a schema that says what a crate weighs. -/
def weightPart : Fields :=
  [(.str "properties", .record [("weight", .record [("type", .str "number")])]),
    (.str "required", .list [.str "weight"])]

/-- The part that a crate has from a box. -/
def boxPart : Fields :=
  [(.str "title", .str "Box"),
    (.str "properties", .record [("weight", .record [("minimum", .int 0)])])]

/-- The part that says how a crate is labelled. -/
def labelPart : Fields :=
  [(.str "required", .list [.str "label"]), (.str "title", .str "Crate"),
    (.str "properties", .record [("label", .record [])])]

/-- The last two parts in a list of their own, the second one as an alternative. -/
def crateGrouping : List Grouping :=
  [.member (.map weightPart),
    .group [.member (.record [("oneOf", .list [.map boxPart])]), .group [],
      .member (.map labelPart)]]

theorem merge_assoc_and_regroup_crate :
    Fits [weightPart, boxPart, labelPart] ∧
    (∃ l r,
      (do merge (← merge (.map weightPart) (.map boxPart)) (.map labelPart)) = .ok l ∧
      (do merge (.map weightPart) (← merge (.map boxPart) (.map labelPart))) = .ok r ∧
      l.settled = r.settled) ∧
    (∀ v ∈ Grouping.flat crateGrouping, KeysApart v) ∧
    ((Grouping.flat crateGrouping).Pairwise fun u v => ∀ r s, compose u = .ok (.map r) →
      compose v = .ok (.map s) → Compatible (.map r) (.map s)) ∧
    Value.settled <$> compose (.map (withAllOf [(.str "type", .str "object")] []
        (Grouping.schemas crateGrouping))) =
      Value.settled <$> compose (.map (withAllOf [(.str "type", .str "object")] []
        (Grouping.flat crateGrouping))) := by
  have hagree : [weightPart, boxPart, labelPart].Pairwise fun a b =>
      agree (.map a) (.map b) = true := by decide +kernel
  have hfits : Fits [weightPart, boxPart, labelPart] :=
    ⟨by decide +kernel, hagree.imp compatible_of_agree⟩
  have hkeys : ∀ v ∈ Grouping.flat crateGrouping, KeysApart v := by decide +kernel
  have hcomposed : List.Forall₂ (fun r v => compose v = .ok (.map r))
      [weightPart, boxPart, labelPart] (Grouping.flat crateGrouping) :=
    .cons rfl (.cons rfl (.cons rfl .nil))
  have hcompatible : (Grouping.flat crateGrouping).Pairwise fun u v => ∀ r s,
      compose u = .ok (.map r) → compose v = .ok (.map s) → Compatible (.map r) (.map s) := by
    refine Outcome.pairwise_of_forall₂ (fun a b u v ha hb h r s hr hs => ?_) hcomposed
      hfits.compatible
    rw [ha, Except.ok.injEq] at hr
    rw [hb, Except.ok.injEq] at hs
    rwa [← hr, ← hs]
  exact ⟨hfits, merge_assoc_and_regroup.1 _ _ _ hfits, hkeys, hcompatible,
    merge_assoc_and_regroup.2 _ _ _ hkeys hcompatible⟩

/-- Three schemas that fit as they stand. The second one is composed to a schema in which
`additionalProperties` is no mapping, as it is in the others. -/
def closedGrouping : List Grouping :=
  [.member (.record [("additionalProperties", .record [("type", .str "string")])]),
    .group [
      .member (.record [("oneOf", .list [.record [("additionalProperties", .bool false)]])]),
      .member (.record [("additionalProperties", .record [("maxLength", .int 5)])])]]

/-- **Members that fit before they are composed** can make different schemas in different
groupings. -/
theorem compose_grouped_ne :
    (∀ v ∈ Grouping.flat closedGrouping, KeysApart v ∧ v.fields?.isSome = true) ∧
    (Grouping.flat closedGrouping).Pairwise Compatible ∧
    Value.settled <$> compose (.map (withAllOf [] [] (Grouping.schemas closedGrouping))) ≠
      Value.settled <$> compose (.map (withAllOf [] [] (Grouping.flat closedGrouping))) := by
  have hagree : (Grouping.flat closedGrouping).Pairwise fun u v => agree u v = true := by
    decide +kernel
  refine ⟨by decide +kernel, hagree.imp compatible_of_agree, fun h => ?_⟩
  have hgrouped : compose (.map (withAllOf [] [] (Grouping.schemas closedGrouping))) =
      .ok (.record [("additionalProperties",
        .record [("type", .str "string"), ("maxLength", .int 5)])]) := rfl
  have hflat : compose (.map (withAllOf [] [] (Grouping.flat closedGrouping))) =
      .ok (.record [("additionalProperties", .record [("maxLength", .int 5)])]) := rfl
  rw [hgrouped, hflat] at h
  have hsame := congrArg (valueAt? [.str "additionalProperties", .str "type"]) (Except.ok.inj h)
  rw [valueAt?_settled, valueAt?_settled] at hsame
  cases hsame

end NodeForge.Schema
