import NodeForge.Proofs.Schema.Contributions
import NodeForge.Proofs.Schema.Plain

/-!
# Values without a key twice

A mapping that is read from a document has each key once, and so have the mappings in it. Merging
keeps this at any depth (`keysApart_mergeOver`), and so does composing (`keysApart_compose`): each
entry that is made anew is written by `Entries.put`, or takes the place of one that was there.
-/

namespace NodeForge.Schema

/-- Whether no mapping in a value has a key twice. -/
def KeysApart (v : Value) : Prop := ∀ es, Value.map es ∈ v.parts → Entries.Apart es

instance (v : Value) : Decidable (KeysApart v) :=
  decidable_of_iff (∀ w ∈ v.parts, ∀ es ∈ w.fields?, Entries.Apart es) <| by
    constructor
    · exact fun h es hes => h _ hes es rfl
    · intro h w hw es hes
      rw [Option.mem_def, Value.fields?_eq_some] at hes
      exact h es (hes ▸ hw)

section KeysApart

variable {u v w : Value}

theorem KeysApart.of_mem_parts (h : KeysApart v) (hw : w ∈ v.parts) : KeysApart w :=
  fun es hes => h es (Value.mem_parts_trans hw hes)

theorem KeysApart.apart {es : Fields} (h : KeysApart (.map es)) : Entries.Apart es :=
  h es (Value.self_mem_parts _)

theorem KeysApart.of_mem {es : Fields} (h : KeysApart (.map es)) {e : Scalar × Value}
    (he : e ∈ es) : KeysApart e.2 :=
  h.of_mem_parts (Value.value_mem_parts he)

theorem KeysApart.of_lookup {es : Fields} (h : KeysApart (.map es)) {k : Scalar}
    (hv : es.lookup k = some v) : KeysApart v := by
  obtain ⟨own, hown, -⟩ := Entries.mem_of_lookup_eq_some hv
  exact h.of_mem hown

theorem keysApart_map_iff {es : Fields} :
    KeysApart (.map es) ↔ Entries.Apart es ∧ ∀ e ∈ es, KeysApart e.2 := by
  constructor
  · exact fun h => ⟨h.apart, fun e he => h.of_mem he⟩
  · rintro ⟨hes, h⟩ fs hfs
    rcases Value.mem_parts_map.1 hfs with hself | ⟨e, he, hfs⟩
    · rwa [Value.map.inj hself]
    · exact h e he fs hfs

theorem keysApart_list_iff {xs : List Value} :
    KeysApart (.list xs) ↔ ∀ x ∈ xs, KeysApart x := by
  constructor
  · exact fun h x hx => h.of_mem_parts (Value.member_mem_parts hx)
  · intro h fs hfs
    rcases Value.mem_parts_list.1 hfs with hself | ⟨x, hx, hfs⟩
    · cases hself
    · exact h x hx fs hfs

theorem keysApart_of_isSingle (h : IsSingle v) : KeysApart v := by
  intro fs hfs
  cases v with
  | map es => cases h.1
  | list xs => cases h.2
  | _ => cases List.mem_singleton.1 hfs

/-! ### Merging -/

theorem keysApart_copied (h : KeysApart v) : KeysApart v.copied := by
  induction v using Value.parts_induction with
  | list xs ih =>
    rw [keysApart_list_iff] at h
    rw [Value.copied_list, keysApart_list_iff, List.forall_mem_map]
    exact fun x hx => ih x hx (h x hx)
  | map es ih =>
    rw [keysApart_map_iff] at h
    rw [Value.copied_map, keysApart_map_iff, Value.apart_copiedFields_iff]
    refine ⟨h.1, fun e he => ?_⟩
    obtain ⟨w, hw, hcopy⟩ := Value.mem_copiedFields.1 he
    rw [hcopy]
    exact ih _ hw (h.2 _ hw)
  | _ => exact keysApart_of_isSingle ⟨rfl, rfl⟩

theorem keysApart_mergeOver (hu : KeysApart u) (hv : KeysApart v) : KeysApart (mergeOver u v) := by
  induction v using Value.parts_induction generalizing u with
  | list ys =>
    cases hitems : u.items? with
    | none => rwa [mergeOver_list_of_ne hitems]
    | some xs =>
      rw [Value.items?_eq_some] at hitems
      subst hitems
      rw [keysApart_list_iff] at hu hv
      rw [mergeOver_list, keysApart_list_iff]
      exact List.forall_mem_append.2 ⟨hu, hv⟩
  | map es ih =>
    cases hfields : u.fields? with
    | none => rwa [mergeOver_map_of_ne hfields]
    | some bs =>
      rw [Value.fields?_eq_some] at hfields
      subst hfields
      have hbs := keysApart_copied hu
      rw [Value.copied_map, keysApart_map_iff] at hbs
      rw [keysApart_map_iff] at hv
      rw [mergeOver_map, keysApart_map_iff]
      exact ⟨apart_mergeFields hbs.1, forall_mem_mergeFields (P := fun _ w => KeysApart w)
        (fun _ h => h) hbs.2 hv.2 fun e he u hu => ih e he hu (hv.2 e he)⟩
  | _ => rwa [mergeOver_of_single rfl rfl]

theorem keysApart_joined {a b : Fields} (ha : KeysApart (.map a)) (hb : KeysApart (.map b)) :
    KeysApart (.map (joined a b)) := by
  rw [joined_eq_mergeOver]
  exact keysApart_mergeOver ha (keysApart_copied hb)

theorem keysApart_foldl_joined {base : Fields} {row : List Fields} (hbase : KeysApart (.map base))
    (hrow : ∀ r ∈ row, KeysApart (.map r)) : KeysApart (.map (row.foldl joined base)) := by
  induction row generalizing base with
  | nil => exact hbase
  | cons r row ih =>
    exact ih (keysApart_joined hbase (hrow r List.mem_cons_self)) fun r' hr' =>
      hrow r' (List.mem_cons_of_mem _ hr')

theorem keysApart_merge (hu : KeysApart u) (hv : KeysApart v) (h : merge u v = .ok w) :
    KeysApart w := by
  obtain ⟨es, hes, h⟩ := Outcome.bind_eq_ok.1 h
  rw [fields_eq_ok] at hes
  cases es with
  | nil =>
    rw [Outcome.pure_eq_ok] at h
    rw [← h]
    exact keysApart_copied hu
  | cons e es =>
    obtain ⟨bs, hbs, h⟩ := Outcome.bind_eq_ok.1 h
    rw [fields_eq_ok] at hbs
    rw [Outcome.pure_eq_ok] at h
    rw [← h]
    exact keysApart_joined (hbs ▸ hu) (hes ▸ hv)

theorem keysApart_mergeAll {schemas : List (Except Fault Value)} (hu : KeysApart u)
    (h : ∀ s ∈ schemas, ∀ v, s = .ok v → KeysApart v) (hw : mergeAll u schemas = .ok w) :
    KeysApart w := by
  induction schemas generalizing u with
  | nil =>
    rw [mergeAll, Except.ok.injEq] at hw
    rwa [← hw]
  | cons s schemas ih =>
    obtain ⟨v, hv, hw⟩ := Outcome.bind_eq_ok.1 hw
    obtain ⟨x, hx, hw⟩ := Outcome.bind_eq_ok.1 hw
    have hmerged := keysApart_merge hu (h s List.mem_cons_self v hv) hx
    exact ih hmerged (fun s hs => h s (List.mem_cons_of_mem _ hs)) hw

theorem keysApart_writeOver {base : Option (Except Fault Value)} (hv : KeysApart v)
    (hbase : ∀ b, base = some (.ok b) → KeysApart b) (h : writeOver base v = .ok w) :
    KeysApart w := by
  cases base with
  | none =>
    rw [writeOver, Except.ok.injEq] at h
    rwa [← h]
  | some c =>
    obtain ⟨b, hb, h⟩ := Outcome.bind_eq_ok.1 h
    exact keysApart_merge (hbase b (by rw [hb])) hv h

/-! ### Composing -/

/-- The schemas in an entry are parts of its value. -/
theorem mem_parts_of_mem_inner {e : Scalar × Value} (h : v ∈ inner e) : v ∈ e.2.parts := by
  obtain ⟨k, x⟩ := e
  have hfirst (hv : v ∈ (firstItem? x).toList) : v ∈ x.parts := by
    rw [Option.mem_toList, firstItem?, Option.bind_eq_some_iff] at hv
    obtain ⟨xs, hxs, hhead⟩ := hv
    rw [Value.items?_eq_some.1 hxs]
    exact Value.member_mem_parts (List.mem_of_mem_head? hhead)
  unfold inner at h
  split at h
  case h_1 | h_5 =>
    next hx =>
      rw [hx]
      exact Value.member_mem_parts h
  case h_2 | h_3 => exact hfirst h
  case h_4 hx =>
    obtain ⟨p, hp, rfl⟩ := List.mem_map.1 h
    rw [hx]
    exact Value.value_mem_parts hp
  case h_6 | h_7 =>
    next hx =>
      rw [hx, List.mem_singleton.1 h]
      exact Value.self_mem_parts _
  case h_8 => cases h

theorem keysApart_composeUnder {k : Scalar} (hv : KeysApart v)
    (hinner : ∀ x ∈ inner (k, v), ∀ y, compose x = .ok y → KeysApart y)
    (h : composeUnder (Keyword.ofKey? k) v = .ok w) : KeysApart w := by
  unfold composeUnder at h
  split at h
  case h_1 ps hk =>
    obtain ⟨qs, hqs, rfl⟩ := Outcome.map_eq_ok.1 h
    rw [inner_map_of_properties hk, Entries.values, List.forall_mem_map] at hinner
    have hrow := Outcome.mapM_eq_ok.1 hqs
    have hkeys : Entries.keys ps = Entries.keys qs := by
      refine Outcome.map_eq_map_of_forall₂ (fun p q hpq => ?_) hrow
      obtain ⟨y, -, hy⟩ := Outcome.bind_eq_ok.1 hpq
      rw [Outcome.pure_eq_ok] at hy
      rw [← hy]
    rw [keysApart_map_iff, Entries.Apart, ← hkeys]
    refine ⟨hv.apart, fun q hq => ?_⟩
    obtain ⟨p, hp, hpq⟩ := Outcome.exists_left_of_mem hrow hq
    obtain ⟨y, hy, hpq⟩ := Outcome.bind_eq_ok.1 hpq
    rw [Outcome.pure_eq_ok] at hpq
    rw [← hpq]
    exact hinner p hp y hy
  case h_2 xs hk =>
    obtain ⟨ys, hys, rfl⟩ := Outcome.map_eq_ok.1 h
    rw [inner_list_of_items hk] at hinner
    rw [keysApart_list_iff]
    intro y hy
    obtain ⟨x, hx, hxy⟩ := (Outcome.mem_iff_of_mapM hys).1 hy
    exact hinner x hx y hxy
  case h_3 es hk =>
    rw [inner_map_of_schema (.inl hk)] at hinner
    exact hinner _ List.mem_cons_self w h
  case h_4 es hk =>
    rw [inner_map_of_schema (.inr hk)] at hinner
    exact hinner _ List.mem_cons_self w h
  case h_5 =>
    rw [Except.ok.injEq] at h
    rwa [← h]

/-- **Composing keeps keys apart at any depth.** -/
theorem keysApart_compose (hv : KeysApart v) (h : compose v = .ok w) : KeysApart w := by
  induction v using schema_induction generalizing w with
  | other v hother =>
    rw [compose_of_fields?_eq_none hother, Except.ok.injEq] at h
    rwa [← h]
  | node schema ih =>
    have hinner : ∀ e ∈ schema, ∀ x ∈ inner e, ∀ y, compose x = .ok y → KeysApart y := by
      intro e he x hx y hy
      exact ih e he x hx ((hv.of_mem he).of_mem_parts (mem_parts_of_mem_inner hx)) hy
    rw [compose_map] at h
    obtain ⟨own, hown, h⟩ := Outcome.bind_eq_ok.1 h
    obtain ⟨upper, hupper, h⟩ := Outcome.bind_eq_ok.1 h
    -- the siblings keep their keys, and all else is merged
    have hownApart : KeysApart (.map own) := by
      rw [keysApart_map_iff, Entries.Apart, keys_mapM_composeEntry hown]
      refine ⟨apart_siblings hv.apart, fun e' he' => ?_⟩
      obtain ⟨e, he, hentry⟩ := (Outcome.mem_iff_of_mapM hown).1 he'
      obtain ⟨y, hy, hentry⟩ := Outcome.bind_eq_ok.1 hentry
      rw [Outcome.pure_eq_ok] at hentry
      rw [← hentry]
      have hmem := (mem_siblings.1 he).1
      exact keysApart_composeUnder (hv.of_mem hmem) (hinner e hmem) hy
    have hupperApart : KeysApart upper := by
      refine keysApart_writeOver hownApart (fun b hb => ?_) hupper
      obtain ⟨xs, hxs, hb⟩ := Option.map_eq_some_iff.1 hb
      refine keysApart_mergeAll (by decide) (fun s hs y hy => ?_) hb
      obtain ⟨x, hx, rfl⟩ := List.mem_map.1 hs
      obtain ⟨e, he, -, hmem⟩ := exists_inner_of_member hxs hx
      exact hinner e he x hmem y hy
    refine keysApart_writeOver hupperApart (fun b hb => ?_) h
    obtain ⟨x, hx, hb⟩ := Option.map_eq_some_iff.1 hb
    obtain ⟨e, he, -, hmem⟩ := exists_inner_of_alternative hx
    exact hinner e he x hmem b hb

end KeysApart

end NodeForge.Schema
