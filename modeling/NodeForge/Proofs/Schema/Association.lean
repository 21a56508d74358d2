import NodeForge.Proofs.Document.Settled
import NodeForge.Proofs.Schema.KeysApart

/-!
# Three mappings merged

Merging is not associative as it stands: a mapping, a text and a mapping under one key make the last
of them if they are merged from the left, and the first and the last merged if they are merged from
the right. Where all that stands in the same place is of one kind, it is (`settled_mergeOver_assoc`).

What is merged is made anew again and again, and not as often from the left as from the right. So
the results are the same but for the order of their sets. How a value is merged does not hang on
that order (`settled_mergeOver_congr`), which is why the copies can be forgotten on the way.
-/

namespace NodeForge.Schema

open Value (settledFields)

/-! ### Places and kinds -/

/-- What merging tells apart. -/
inductive Kind where
  | mapping
  | list
  | single
deriving Repr, DecidableEq

/-- The kind of a value. -/
def kindOf : Value → Kind
  | .map _ => .mapping
  | .list _ => .list
  | _ => .single

/-- What stands in a value behind a row of keys, each of which leads into a mapping. -/
def valueAt? : List Scalar → Value → Option Value
  | [], v => some v
  | k :: path, v => (v.fields?.bind fun es => es.lookup k).bind (valueAt? path)

/-- Whether what two values both hold behind the same keys is of the same kind: two mappings, two
lists, or two values that are neither. -/
def Compatible (u v : Value) : Prop :=
  ∀ path x y, valueAt? path u = some x → valueAt? path v = some y → kindOf x = kindOf y

theorem kindOf_eq_mapping {v : Value} : kindOf v = .mapping ↔ ∃ es, v = .map es := by
  cases v <;> simp [kindOf]

theorem kindOf_eq_list {v : Value} : kindOf v = .list ↔ ∃ xs, v = .list xs := by
  cases v <;> simp [kindOf]

theorem valueAt?_map {k : Scalar} {es : Fields} {v : Value} (h : es.lookup k = some v)
    (path : List Scalar) : valueAt? (k :: path) (.map es) = valueAt? path v := by
  rw [valueAt?, Value.fields?, Option.bind_some, h, Option.bind_some]

section Compatible

variable {u v : Value} {bs es : Fields}

theorem Compatible.symm (h : Compatible u v) : Compatible v u :=
  fun path x y hx hy => (h path y x hy hx).symm

theorem Compatible.kindOf_eq (h : Compatible u v) : kindOf u = kindOf v := h [] u v rfl rfl

theorem Compatible.lookup (h : Compatible (.map bs) (.map es)) {k : Scalar}
    (hu : bs.lookup k = some u) (hv : es.lookup k = some v) : Compatible u v := by
  intro path x y hx hy
  refine h (k :: path) x y ?_ ?_
  · rwa [valueAt?_map hu]
  · rwa [valueAt?_map hv]

end Compatible

mutual

/-- A check on whether two values are compatible. It goes through the entries of the second one, so
of two entries under one key it looks at both. -/
def agree (u : Value) : Value → Bool
  | .map es =>
    match u with
    | .map bs => fieldsAgree bs es
    | _ => false
  | v => kindOf u == kindOf v

/-- The check for the entries of two mappings. -/
def fieldsAgree (bs : Fields) : List (Scalar × Value) → Bool
  | [] => true
  | (k, v) :: es =>
    (match bs.lookup k with
      | some u => agree u v
      | none => true) && fieldsAgree bs es

end

theorem agree_of_fieldsAgree {bs es : Fields} (h : fieldsAgree bs es = true) {e : Scalar × Value}
    (he : e ∈ es) {u : Value} (hu : bs.lookup e.1 = some u) : agree u e.2 = true := by
  induction es with
  | nil => cases he
  | cons e' es ih =>
    rw [fieldsAgree, Bool.and_eq_true] at h
    rcases List.mem_cons.1 he with rfl | he
    · simpa only [hu] using h.1
    · exact ih h.2 he

theorem compatible_of_kindOf_eq {u v : Value} (h : kindOf u = kindOf v) (hv : v.fields? = none) :
    Compatible u v := by
  intro path x y hx hy
  cases path with
  | nil => rwa [← Option.some.inj hx, ← Option.some.inj hy]
  | cons k path =>
    rw [valueAt?, hv] at hy
    cases hy

theorem compatible_of_agree {u v : Value} (h : agree u v = true) : Compatible u v := by
  induction v using Value.parts_induction generalizing u with
  | map es ih =>
    cases u with
    | map bs =>
      rw [agree] at h
      intro path x y hx hy
      cases path with
      | nil => rw [← Option.some.inj hx, ← Option.some.inj hy, kindOf, kindOf]
      | cons k path =>
        rw [valueAt?, Value.fields?, Option.bind_some] at hx hy
        obtain ⟨t, ht, hx⟩ := Option.bind_eq_some_iff.1 hx
        obtain ⟨w, hw, hy⟩ := Option.bind_eq_some_iff.1 hy
        obtain ⟨own, hown, hsame⟩ := Entries.mem_of_lookup_eq_some hw
        rw [Entries.lookup_congr hsame] at ht
        exact ih _ hown (agree_of_fieldsAgree h hown ht) path x y hx hy
    | _ => cases h
  | _ => exact compatible_of_kindOf_eq (eq_of_beq h) rfl

/-! ### The order of sets does not matter -/

theorem settled_meet_congr {v v' : Value} (hv : v.settled = v'.settled)
    (hmeet : ∀ u u', u.settled = u'.settled → (mergeOver u v).settled = (mergeOver u' v').settled)
    {x x' : Option Value} (hx : x.map Value.settled = x'.map Value.settled) :
    (meet x v).settled = (meet x' v').settled := by
  cases x with
  | none =>
    obtain rfl : x' = none := Option.map_eq_none_iff.1 hx.symm
    exact hv
  | some u =>
    obtain ⟨u', rfl, hu⟩ := Option.map_eq_some_iff.1 hx.symm
    exact hmeet u u' hu.symm

theorem settledFields_mergeFields_congr {base base' extra extra' : Fields}
    (hbase : settledFields base = settledFields base')
    (hextra : settledFields extra = settledFields extra')
    (hmeet : ∀ e ∈ extra, ∀ u u' v', u.settled = u'.settled → e.2.settled = v'.settled →
      (mergeOver u e.2).settled = (mergeOver u' v').settled) :
    settledFields (mergeFields base extra) = settledFields (mergeFields base' extra') := by
  induction extra generalizing base base' extra' with
  | nil =>
    cases extra' with
    | nil => exact hbase
    | cons e' rest' => cases hextra
  | cons e rest ih =>
    obtain ⟨k, v⟩ := e
    cases extra' with
    | nil => cases hextra
    | cons e' rest' =>
      obtain ⟨k', v'⟩ := e'
      rw [settledFields, settledFields, List.cons.injEq, Prod.mk.injEq] at hextra
      obtain ⟨⟨rfl, hv⟩, hrest⟩ := hextra
      rw [mergeFields_cons, mergeFields_cons]
      refine ih ?_ hrest fun e he => hmeet e (List.mem_cons_of_mem _ he)
      have hlookup : (base.lookup k).map Value.settled = (base'.lookup k).map Value.settled := by
        rw [← Value.lookup_settledFields, hbase, Value.lookup_settledFields]
      rw [Value.settledFields_put, Value.settledFields_put, hbase,
        settled_meet_congr hv (fun u u' hu => hmeet _ List.mem_cons_self u u' v' hu hv) hlookup]

theorem settled_mergeOver_list_congr {ys : List Value} {u u' v' : Value}
    (hu : u.settled = u'.settled) (hv : (Value.list ys).settled = v'.settled) :
    (mergeOver u (.list ys)).settled = (mergeOver u' v').settled := by
  obtain ⟨ys', rfl, hys⟩ := Value.exists_list_of_settled hv
  cases hitems : u.items? with
  | none =>
    have hitems' : u'.items? = none := by
      have hcongr := Value.items?_congr hu
      rw [hitems] at hcongr
      exact Option.map_eq_none_iff.1 hcongr.symm
    rwa [mergeOver_list_of_ne hitems, mergeOver_list_of_ne hitems']
  | some xs =>
    rw [Value.items?_eq_some] at hitems
    subst hitems
    obtain ⟨xs', rfl, hxs⟩ := Value.exists_list_of_settled hu
    rw [mergeOver_list, mergeOver_list, Value.settled_list, Value.settled_list, List.map_append,
      List.map_append, hxs, hys]

theorem settled_mergeOver_map_congr {es : Fields} {u u' v' : Value}
    (hmeet : ∀ e ∈ es, ∀ u u' v', u.settled = u'.settled → e.2.settled = v'.settled →
      (mergeOver u e.2).settled = (mergeOver u' v').settled)
    (hu : u.settled = u'.settled) (hv : (Value.map es).settled = v'.settled) :
    (mergeOver u (.map es)).settled = (mergeOver u' v').settled := by
  obtain ⟨es', rfl, hes⟩ := Value.exists_map_of_settled hv
  cases hfields : u.fields? with
  | none =>
    have hfields' : u'.fields? = none := by
      have hcongr := Value.fields?_congr hu
      rw [hfields] at hcongr
      exact Option.map_eq_none_iff.1 hcongr.symm
    rwa [mergeOver_map_of_ne hfields, mergeOver_map_of_ne hfields']
  | some bs =>
    rw [Value.fields?_eq_some] at hfields
    subst hfields
    obtain ⟨bs', rfl, hbs⟩ := Value.exists_map_of_settled hu
    rw [mergeOver_map, mergeOver_map, Value.settled_map, Value.settled_map,
      settledFields_mergeFields_congr _ hes hmeet]
    rw [Value.settledFields_copiedFields, Value.settledFields_copiedFields, hbs]

/-- **Merging does not hang on the order of sets.** -/
theorem settled_mergeOver_congr {u u' v v' : Value} (hu : u.settled = u'.settled)
    (hv : v.settled = v'.settled) : (mergeOver u v).settled = (mergeOver u' v').settled := by
  induction v using Value.parts_induction generalizing u u' v' with
  | list ys => exact settled_mergeOver_list_congr hu hv
  | map es ih =>
    exact settled_mergeOver_map_congr (fun e he u u' v' hu hv => ih e he hu hv) hu hv
  | _ =>
    -- any other value takes the place of the first one
    have hfields : v'.fields? = none := Option.map_eq_none_iff.1 (Value.fields?_congr hv).symm
    have hitems : v'.items? = none := Option.map_eq_none_iff.1 (Value.items?_congr hv).symm
    rwa [mergeOver_of_single rfl rfl, mergeOver_of_single hfields hitems]

/-! ### One key of three mappings -/

/-- What comes to stand under a key where two values may stand. -/
def meeting (x y : Option Value) : Option Value := (y.map (meet x)).or x

theorem map_settled_meeting_congr {x x' y y' : Option Value}
    (hx : x.map Value.settled = x'.map Value.settled)
    (hy : y.map Value.settled = y'.map Value.settled) :
    (meeting x y).map Value.settled = (meeting x' y').map Value.settled := by
  cases y with
  | none =>
    obtain rfl : y' = none := Option.map_eq_none_iff.1 hy.symm
    exact hx
  | some v =>
    obtain ⟨v', rfl, hv⟩ := Option.map_eq_some_iff.1 hy.symm
    exact congrArg some
      (settled_meet_congr hv.symm (fun _ _ hu => settled_mergeOver_congr hu hv.symm) hx)

theorem map_settled_meeting_assoc {x y z : Option Value}
    (h : ∀ u ∈ x, ∀ v ∈ y, ∀ w ∈ z,
      (mergeOver (mergeOver u v) w).settled = (mergeOver u (mergeOver v w)).settled) :
    (meeting (meeting x y) z).map Value.settled = (meeting x (meeting y z)).map Value.settled := by
  cases z with
  | none => rfl
  | some w =>
    cases y with
    | none => rfl
    | some v =>
      cases x with
      | none => rfl
      | some u => exact congrArg some (h u rfl v rfl w rfl)

/-- The value under a key after one mapping is merged into another one. -/
theorem map_settled_lookup_mergeFields {bs es : Fields} (h : Entries.Apart es) (k : Scalar) :
    ((mergeFields (Value.copiedFields bs) es).lookup k).map Value.settled =
      (meeting (bs.lookup k) (es.lookup k)).map Value.settled := by
  rw [lookup_mergeFields k h, Value.lookup_copiedFields]
  refine map_settled_meeting_congr ?_ rfl
  rw [Option.map_map]
  exact congrArg (fun f => (bs.lookup k).map f) (funext Value.settled_copied)

/-! ### The keys of three mappings -/

/-- The keys of the second mapping come behind those of the first, without those that are there. -/
theorem keys_mergeFields {base extra : Fields} (h : Entries.Apart extra) :
    Entries.keys (mergeFields base extra) =
      Entries.keys base ++ (Entries.keys extra).filter fun k => !Entries.has k base := by
  induction extra generalizing base with
  | nil =>
    rw [mergeFields]
    exact (List.append_nil _).symm
  | cons e rest ih =>
    obtain ⟨key, v⟩ := e
    obtain ⟨hother, hrest⟩ := Entries.apart_cons_iff.1 h
    have hsame : ((Entries.keys rest).filter fun k =>
        !Entries.has k (Entries.put key (meet (base.lookup key) v) base)) =
          (Entries.keys rest).filter fun k => !Entries.has k base := by
      refine List.filter_congr fun k hk => ?_
      rw [Entries.has_put, BEq.comm, hother k hk, Bool.false_or]
    have hany : (Entries.keys base).any (· == key) = Entries.has key base := by
      rw [Bool.eq_iff_iff, Entries.has_iff_exists]
      simp [Entries.keys, BEq.comm]
    rw [mergeFields_cons, ih hrest, hsame, Entries.keys_put, hany, Entries.keys_cons,
      List.filter_cons]
    cases Entries.has key base with
    | true => rfl
    | false => exact List.append_assoc _ _ _

theorem keys_mergeFields_assoc {as bs cs : Fields} (hbs : Entries.Apart bs)
    (hcs : Entries.Apart cs) :
    Entries.keys (mergeFields (Value.copiedFields (mergeFields (Value.copiedFields as) bs)) cs) =
      Entries.keys
        (mergeFields (Value.copiedFields as) (mergeFields (Value.copiedFields bs) cs)) := by
  have hmerged : Entries.Apart (mergeFields (Value.copiedFields bs) cs) :=
    apart_mergeFields (Value.apart_copiedFields_iff.2 hbs)
  rw [keys_mergeFields hcs, keys_mergeFields hmerged, keys_mergeFields hcs, Value.keys_copiedFields,
    Value.keys_copiedFields, Value.keys_copiedFields, keys_mergeFields hbs, Value.keys_copiedFields,
    List.filter_append, List.filter_filter, List.append_assoc]
  simp only [Value.has_copiedFields, has_mergeFields, Bool.not_or]

/-! ### Three values -/

/-- **Merging is associative.** -/
theorem settled_mergeOver_assoc {u v w : Value} (huv : Compatible u v) (huw : Compatible u w)
    (hvw : Compatible v w) (hu : KeysApart u) (hv : KeysApart v) (hw : KeysApart w) :
    (mergeOver (mergeOver u v) w).settled = (mergeOver u (mergeOver v w)).settled := by
  induction w using Value.parts_induction generalizing u v with
  | list zs =>
    obtain ⟨xs, rfl⟩ := kindOf_eq_list.1 huw.kindOf_eq
    obtain ⟨ys, rfl⟩ := kindOf_eq_list.1 hvw.kindOf_eq
    rw [mergeOver_list, mergeOver_list, mergeOver_list, mergeOver_list, List.append_assoc]
  | map cs ih =>
    obtain ⟨as, rfl⟩ := kindOf_eq_mapping.1 huw.kindOf_eq
    obtain ⟨bs, rfl⟩ := kindOf_eq_mapping.1 hvw.kindOf_eq
    have hleft : Entries.Apart (mergeFields (Value.copiedFields as) bs) :=
      apart_mergeFields (Value.apart_copiedFields_iff.2 hu.apart)
    have hright : Entries.Apart (mergeFields (Value.copiedFields bs) cs) :=
      apart_mergeFields (Value.apart_copiedFields_iff.2 hv.apart)
    rw [mergeOver_map, mergeOver_map, mergeOver_map, mergeOver_map, Value.settled_map,
      Value.settled_map, Value.settledFields_ext
        (apart_mergeFields (Value.apart_copiedFields_iff.2 hleft))
        (keys_mergeFields_assoc hv.apart hw.apart)]
    intro k
    -- under each key the three values that may stand there are merged in turn
    rw [map_settled_lookup_mergeFields hw.apart, map_settled_lookup_mergeFields hright,
      map_settled_meeting_congr (map_settled_lookup_mergeFields hv.apart k) rfl,
      map_settled_meeting_congr rfl (map_settled_lookup_mergeFields hw.apart k)]
    refine map_settled_meeting_assoc fun x hx y hy z hz => ?_
    obtain ⟨own, hown, -⟩ := Entries.mem_of_lookup_eq_some hz
    exact ih (own, z) hown (huv.lookup hx hy) (huw.lookup hx hz) (hvw.lookup hy hz)
      (hu.of_lookup hx) (hv.of_lookup hy) (hw.of_lookup hz)
  | _ =>
    rw [mergeOver_of_single rfl rfl, mergeOver_of_single rfl rfl, mergeOver_of_single rfl rfl]

/-- Two mappings that are made anew and merged are merged as they stand. -/
theorem settled_joined (a b : Fields) :
    (Value.map (joined a b)).settled = (mergeOver (.map a) (.map b)).settled := by
  rw [joined_eq_mergeOver]
  exact settled_mergeOver_congr rfl (Value.settled_copied _)

end NodeForge.Schema
