import NodeForge.Proofs.Schema.Association

/-!
# Rows of mappings merged

A row of mappings is merged one after the other onto a first one. Where any two of them are
compatible, the row can be merged for itself first (`settled_foldl_joined`): what is merged from
some of them is compatible with the others, since whatever stands in it is of the kind of what one
of them holds there (`exists_valueAt?_of_mergeOver`).
-/

namespace NodeForge.Schema

/-! ### Kinds in a merged value -/

theorem kindOf_settled (v : Value) : kindOf v.settled = kindOf v := by
  cases v <;> rfl

theorem valueAt?_settled (path : List Scalar) (v : Value) :
    valueAt? path v.settled = (valueAt? path v).map Value.settled := by
  induction path generalizing v with
  | nil => rfl
  | cons k path ih =>
    rw [valueAt?, valueAt?, Value.fields?_settled]
    cases v.fields? with
    | none => rfl
    | some es =>
      rw [Option.map_some, Option.bind_some, Option.bind_some, Value.lookup_settledFields]
      cases es.lookup k with
      | none => rfl
      | some w => exact ih w

theorem exists_valueAt?_congr {u v x : Value} (h : u.settled = v.settled) {path : List Scalar}
    (hx : valueAt? path u = some x) : ∃ y, valueAt? path v = some y ∧ kindOf y = kindOf x := by
  have hplace : (valueAt? path v).map Value.settled = some x.settled := by
    rw [← valueAt?_settled, ← h, valueAt?_settled, hx, Option.map_some]
  obtain ⟨y, hy, hsame⟩ := Option.map_eq_some_iff.1 hplace
  refine ⟨y, hy, ?_⟩
  rw [← kindOf_settled y, hsame, kindOf_settled]

theorem Compatible.congr_right {t u v : Value} (h : Compatible t u) (huv : u.settled = v.settled) :
    Compatible t v := by
  intro path x y hx hy
  obtain ⟨z, hz, hkind⟩ := exists_valueAt?_congr huv.symm hy
  rw [← hkind]
  exact h path x z hx hz

theorem kindOf_mergeOver (u v : Value) : kindOf (mergeOver u v) = kindOf v := by
  cases v with
  | map es =>
    obtain ⟨fs, hfs⟩ := exists_mergeOver_map u es
    rw [hfs, kindOf, kindOf]
  | list ys =>
    obtain ⟨zs, hzs, -⟩ := exists_mergeOver_list u ys
    rw [hzs, kindOf, kindOf]
  | _ => rw [mergeOver_of_single rfl rfl]

/-- What stands somewhere in a merged value is of the kind of what stands there in one of the two
values that it is merged from. -/
theorem exists_valueAt?_of_mergeOver {path : List Scalar} {u v x : Value} (hv : KeysApart v)
    (h : valueAt? path (mergeOver u v) = some x) :
    ∃ y, (valueAt? path u = some y ∨ valueAt? path v = some y) ∧ kindOf y = kindOf x := by
  induction path generalizing u v x with
  | nil =>
    refine ⟨v, .inr rfl, ?_⟩
    rw [← Option.some.inj h, kindOf_mergeOver]
  | cons k path ih =>
    cases v with
    | list ys =>
      -- no key leads into a list
      obtain ⟨zs, hzs, -⟩ := exists_mergeOver_list u ys
      rw [hzs] at h
      cases h
    | map es =>
      cases hfields : u.fields? with
      | none =>
        rw [mergeOver_map_of_ne hfields] at h
        exact ⟨x, .inr h, rfl⟩
      | some bs =>
        rw [Value.fields?_eq_some] at hfields
        subst hfields
        rw [mergeOver_map, valueAt?, Value.fields?, Option.bind_some] at h
        obtain ⟨z, hz, hx⟩ := Option.bind_eq_some_iff.1 h
        have hmeeting := @map_settled_lookup_mergeFields bs es hv.apart k
        rw [hz] at hmeeting
        obtain ⟨z', hz', hsame⟩ := Option.map_eq_some_iff.1 hmeeting.symm
        obtain ⟨y, hy, hkind⟩ := exists_valueAt?_congr hsame.symm hx
        rw [← hkind]
        cases hlast : es.lookup k with
        | none =>
          rw [hlast] at hz'
          exact ⟨y, .inl ((valueAt?_map hz' path).trans hy), rfl⟩
        | some w =>
          rw [valueAt?_map hlast]
          cases hfirst : bs.lookup k with
          | none =>
            rw [hlast, hfirst] at hz'
            obtain rfl : w = z' := Option.some.inj hz'
            exact ⟨y, .inr hy, rfl⟩
          | some t =>
            rw [hlast, hfirst] at hz'
            obtain rfl : mergeOver t w = z' := Option.some.inj hz'
            rw [valueAt?_map hfirst]
            exact ih (hv.of_lookup hlast) hy
    | _ =>
      rw [mergeOver_of_single rfl rfl] at h
      exact ⟨x, .inr h, rfl⟩

theorem compatible_mergeOver {t u v : Value} (hu : Compatible t u) (hv : Compatible t v)
    (h : KeysApart v) : Compatible t (mergeOver u v) := by
  intro path x y hx hy
  obtain ⟨z, hz, hkind⟩ := exists_valueAt?_of_mergeOver h hy
  rw [← hkind]
  rcases hz with hz | hz
  · exact hu path x z hx hz
  · exact hv path x z hx hz

theorem compatible_joined {t : Value} {a b : Fields} (ha : Compatible t (.map a))
    (hb : Compatible t (.map b)) (h : KeysApart (.map b)) : Compatible t (.map (joined a b)) :=
  (compatible_mergeOver ha hb h).congr_right (settled_joined a b).symm

theorem compatible_nil (es : Fields) : Compatible (.map []) (.map es) := by
  intro path x y hx hy
  cases path with
  | nil => rw [← Option.some.inj hx, ← Option.some.inj hy, kindOf, kindOf]
  | cons k path => cases hx

/-! ### Rows of mappings that fit -/

/-- Whether the mappings of a row fit together: no mapping in them has a key twice, and what any two
of them hold in the same place is of one kind. -/
structure Fits (row : List Fields) : Prop where
  apart : ∀ r ∈ row, KeysApart (.map r)
  compatible : row.Pairwise fun a b => Compatible (.map a) (.map b)

section Fits

variable {a b base : Fields} {row rest : List Fields}

theorem fits_cons_iff : Fits (a :: row) ↔
    KeysApart (.map a) ∧ (∀ r ∈ row, Compatible (.map a) (.map r)) ∧ Fits row := by
  constructor
  · rintro ⟨hapart, hcompatible⟩
    rw [List.forall_mem_cons] at hapart
    rw [List.pairwise_cons] at hcompatible
    exact ⟨hapart.1, hcompatible.1, hapart.2, hcompatible.2⟩
  · rintro ⟨ha, hrow, hapart, hcompatible⟩
    exact ⟨List.forall_mem_cons.2 ⟨ha, hapart⟩, List.pairwise_cons.2 ⟨hrow, hcompatible⟩⟩

theorem Fits.perm (h : Fits row) (hperm : row.Perm rest) : Fits rest where
  apart r hr := h.apart r (hperm.mem_iff.2 hr)
  compatible := (hperm.pairwise_iff Compatible.symm).1 h.compatible

theorem Fits.sublist (h : Fits row) (hsub : rest.Sublist row) : Fits rest where
  apart r hr := h.apart r (hsub.subset hr)
  compatible := h.compatible.sublist hsub

theorem Fits.nil_cons (h : Fits row) : Fits ([] :: row) :=
  fits_cons_iff.2 ⟨by decide, fun r _ => compatible_nil r, h⟩

/-- Merging the first two mappings of a row leaves a row that fits. -/
theorem Fits.merged (h : Fits (a :: b :: row)) : Fits (joined a b :: row) := by
  obtain ⟨ha, hcompatibleA, h⟩ := fits_cons_iff.1 h
  obtain ⟨hb, hcompatibleB, h⟩ := fits_cons_iff.1 h
  refine fits_cons_iff.2 ⟨keysApart_joined ha hb, fun r hr => ?_, h⟩
  exact (compatible_joined (hcompatibleA r (List.mem_cons_of_mem _ hr)).symm
    (hcompatibleB r hr).symm hb).symm

theorem Fits.foldl_joined (h : Fits (base :: (row ++ rest))) :
    Fits (row.foldl joined base :: rest) := by
  induction row generalizing base with
  | nil => exact h
  | cons r row ih => exact ih h.merged

theorem settled_joined_nil (ha : KeysApart (.map a)) :
    (Value.map (joined [] a)).settled = (Value.map a).settled := by
  have hkeys : Entries.keys (mergeFields [] a) = Entries.keys a := by
    rw [keys_mergeFields ha.apart]
    exact List.filter_eq_self.2 fun _ _ => rfl
  rw [settled_joined, mergeOver_map, Value.settled_map, Value.settled_map]
  refine congrArg Value.map (Value.settledFields_ext (apart_mergeFields Entries.apart_nil) hkeys ?_)
  intro k
  rw [Value.copiedFields, lookup_mergeFields k ha.apart]
  cases a.lookup k <;> rfl

theorem settled_mergeOver_nil (a : Fields) :
    (mergeOver (.map a) (.map [])).settled = (Value.map a).settled := by
  rw [mergeOver_map, mergeFields, ← Value.copied_map, Value.settled_copied]

/-- **Merging a row onto a mapping.** It is the same to merge the row for itself first. -/
theorem settled_foldl_joined (h : Fits (base :: row)) :
    (Value.map (row.foldl joined base)).settled =
      (mergeOver (.map base) (.map (row.foldl joined []))).settled := by
  induction row generalizing base with
  | nil => exact (settled_mergeOver_nil base).symm
  | cons r row ih =>
    obtain ⟨hbase, hcompatible, hrow⟩ := fits_cons_iff.1 h
    obtain ⟨hr, -, -⟩ := fits_cons_iff.1 hrow
    -- what the rest is merged to fits both mappings in front
    have hrest {t : Fields} (ht : Fits (t :: row)) :
        Compatible (.map t) (.map (row.foldl joined [])) := by
      have hmoved : Fits ([] :: (row ++ [t])) :=
        (ht.perm (List.perm_append_singleton t row).symm).nil_cons
      exact ((fits_cons_iff.1 hmoved.foldl_joined).2.1 t List.mem_cons_self).symm
    have hbaseRow : Fits (base :: row) := h.sublist (.cons_cons _ (.cons _ (.refl _)))
    have hlast : KeysApart (.map (row.foldl joined [])) :=
      keysApart_foldl_joined (by decide) fun s hs => hrow.apart s (List.mem_cons_of_mem _ hs)
    calc (Value.map (row.foldl joined (joined base r))).settled
        = (mergeOver (.map (joined base r)) (.map (row.foldl joined []))).settled := ih h.merged
      _ = (mergeOver (mergeOver (.map base) (.map r)) (.map (row.foldl joined []))).settled :=
          settled_mergeOver_congr (settled_joined base r) rfl
      _ = (mergeOver (.map base) (mergeOver (.map r) (.map (row.foldl joined [])))).settled :=
          settled_mergeOver_assoc (hcompatible r List.mem_cons_self) (hrest hbaseRow) (hrest hrow)
            hbase hr hlast
      _ = (mergeOver (.map base)
            (mergeOver (.map (joined [] r)) (.map (row.foldl joined [])))).settled :=
          settled_mergeOver_congr rfl (settled_mergeOver_congr (settled_joined_nil hr).symm rfl)
      _ = (mergeOver (.map base) (.map (row.foldl joined (joined [] r)))).settled :=
          settled_mergeOver_congr rfl (ih hrow.nil_cons.merged).symm

theorem settled_joined_congr {a' b' : Fields} (ha : (Value.map a).settled = (Value.map a').settled)
    (hb : (Value.map b).settled = (Value.map b').settled) :
    (Value.map (joined a b)).settled = (Value.map (joined a' b')).settled := by
  rw [settled_joined, settled_joined]
  exact settled_mergeOver_congr ha hb

theorem settled_foldl_congr {base' : Fields} (row : List Fields)
    (h : (Value.map base).settled = (Value.map base').settled) :
    (Value.map (row.foldl joined base)).settled = (Value.map (row.foldl joined base')).settled := by
  induction row generalizing base base' with
  | nil => exact h
  | cons r row ih => exact ih (settled_joined_congr h rfl)

end Fits

end NodeForge.Schema
