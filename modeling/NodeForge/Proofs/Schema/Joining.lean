import NodeForge.Proofs.Document.Copies
import NodeForge.Proofs.Document.Sameness
import NodeForge.Proofs.Outcome
import NodeForge.Schema.Merge

/-!
# Two mappings merged

Of two mappings `merge` makes one, `joined base extra`. What stands under a key of it is said by
`lookup_joined`: a value that only one of the two has, or what the later value makes of the earlier
one. Nothing else comes into it, so a fact about entries that is kept where two values meet is a
fact about all entries of the merged mapping (`forall_mem_mergeFields`).
-/

namespace NodeForge.Schema

/-- The second mapping merged into the first, both of them made anew. -/
def joined (base extra : Fields) : Fields :=
  mergeFields (Value.copiedFields base) (Value.copiedFields extra)

theorem merge_map (base extra : Fields) :
    merge (.map base) (.map extra) = .ok (.map (joined base extra)) := by
  cases extra with
  | nil =>
    show Except.ok (Value.map base).copied = _
    rw [Value.copied_map]
    rfl
  | cons e es => rfl

/-- Onto what is no mapping, nothing can be written. -/
theorem merge_of_fields?_eq_none {base : Value} (h : base.fields? = none) (extra : Fields) :
    merge base (.map extra) =
      if extra.isEmpty then .ok base.copied else .error .noSuchMember := by
  have hfail : base.fields = .error .noSuchMember := Outcome.orFault_eq_error.2 ⟨h, rfl⟩
  cases extra with
  | nil => rfl
  | cons e es =>
    show (do return Value.map (mergeFields (Value.copiedFields (← base.fields)) _)) = _
    rw [hfail]
    rfl

/-! ### What two values under one key make -/

theorem mergeOver_map (bs es : Fields) :
    mergeOver (.map bs) (.map es) = .map (mergeFields (Value.copiedFields bs) es) := by
  rw [mergeOver]

/-- Merging two mappings is what happens to them under one key, but for the second one being made
anew. -/
theorem joined_eq_mergeOver (a b : Fields) :
    Value.map (joined a b) = mergeOver (.map a) (Value.map b).copied := by
  rw [Value.copied_map, mergeOver_map, joined]

theorem mergeOver_list (xs ys : List Value) :
    mergeOver (.list xs) (.list ys) = .list (xs ++ ys) := by
  rw [mergeOver]

theorem mergeOver_map_of_ne {u : Value} (hu : u.fields? = none) (es : Fields) :
    mergeOver u (.map es) = .map es := by
  cases u with
  | map bs => cases hu
  | _ => rw [mergeOver]; exact nofun

theorem mergeOver_list_of_ne {u : Value} (hu : u.items? = none) (ys : List Value) :
    mergeOver u (.list ys) = .list ys := by
  cases u with
  | list xs => cases hu
  | _ => rw [mergeOver]; exact nofun

/-- A value that is no mapping and no list takes the place of any other one. -/
theorem mergeOver_of_single {v : Value} (hfields : v.fields? = none) (hitems : v.items? = none)
    (u : Value) : mergeOver u v = v := by
  cases v with
  | map es => cases hfields
  | list ys => cases hitems
  | _ => rw [mergeOver] <;> exact nofun

/-- What comes to stand under a key where a value may stand already. -/
def meet (current : Option Value) (v : Value) : Value := current.elim v fun u => mergeOver u v

theorem mergeFields_cons (base : Fields) (k : Scalar) (v : Value) (rest : Fields) :
    mergeFields base ((k, v) :: rest) =
      mergeFields (Entries.put k (meet (base.lookup k) v) base) rest := by
  rw [mergeFields]
  cases base.lookup k <;> rfl

/-! ### Looking a key up -/

theorem lookup_mergeFields (k : Scalar) {base extra : Fields} (h : Entries.Apart extra) :
    (mergeFields base extra).lookup k =
      ((extra.lookup k).map (meet (base.lookup k))).or (base.lookup k) := by
  induction extra generalizing base with
  | nil => rfl
  | cons e rest ih =>
    obtain ⟨key, v⟩ := e
    rw [mergeFields_cons, ih (Entries.apart_cons_iff.1 h).2, Entries.lookup_put, List.lookup_cons]
    cases hk : k == key with
    | true =>
      -- the key does not come up again, so this entry decides
      have hrest : rest.lookup k = none := Entries.lookup_rest_of_apart h hk
      rw [hrest, Entries.lookup_congr hk base]
      rfl
    | false => rfl

/-- **One key of a merged mapping.** A value that stands in only one of the two is taken over, and
where both have one the later value meets the earlier one. -/
theorem lookup_joined (k : Scalar) {base extra : Fields} (h : Entries.Apart extra) :
    (joined base extra).lookup k =
      ((extra.lookup k).map fun v => meet ((base.lookup k).map Value.copied) v.copied).or
        ((base.lookup k).map Value.copied) := by
  rw [joined, lookup_mergeFields k (Value.apart_copiedFields_iff.2 h), Value.lookup_copiedFields,
    Value.lookup_copiedFields, Option.map_map]
  rfl

/-- The keys of both mappings are there. -/
theorem has_mergeFields (k : Scalar) (base extra : Fields) :
    Entries.has k (mergeFields base extra) = (Entries.has k base || Entries.has k extra) := by
  induction extra generalizing base with
  | nil =>
    rw [mergeFields]
    exact (Bool.or_false _).symm
  | cons e rest ih =>
    obtain ⟨key, v⟩ := e
    rw [mergeFields_cons, ih, Entries.has_put, Entries.has_cons, Bool.or_comm (k == key),
      Bool.or_assoc]

theorem has_joined (k : Scalar) (base extra : Fields) :
    Entries.has k (joined base extra) = (Entries.has k base || Entries.has k extra) := by
  rw [joined, has_mergeFields, Value.has_copiedFields, Value.has_copiedFields]

theorem apart_mergeFields {base extra : Fields} (h : Entries.Apart base) :
    Entries.Apart (mergeFields base extra) := by
  induction extra generalizing base with
  | nil => exact h
  | cons e rest ih =>
    rw [mergeFields_cons]
    exact ih (Entries.apart_put h)

theorem apart_joined {base extra : Fields} (h : Entries.Apart base) :
    Entries.Apart (joined base extra) :=
  apart_mergeFields (Value.apart_copiedFields_iff.2 h)

/-! ### All entries -/

section Invariant

variable {P : Scalar → Value → Prop} (hsame : ∀ {k k' v}, (k == k') = true → P k v → P k' v)

include hsame

theorem forall_mem_put {key : Scalar} {value : Value} {entries : Fields} (hvalue : P key value)
    (h : ∀ e ∈ entries, P e.1 e.2) : ∀ e ∈ Entries.put key value entries, P e.1 e.2 := by
  induction entries with
  | nil => simpa using hvalue
  | cons e rest ih =>
    obtain ⟨k, v⟩ := e
    have hrest : ∀ e ∈ rest, P e.1 e.2 := fun e he => h e (List.mem_cons_of_mem _ he)
    rw [Entries.put]
    split
    · next hk => exact List.forall_mem_cons.2 ⟨hsame (BEq.symm hk) hvalue, hrest⟩
    · exact List.forall_mem_cons.2 ⟨h _ List.mem_cons_self, ih hrest⟩

/-- What holds of the entries of two mappings, and of what two values make where they meet, holds of
all entries after merging. -/
theorem forall_mem_mergeFields {base extra : Fields} (hbase : ∀ e ∈ base, P e.1 e.2)
    (hextra : ∀ e ∈ extra, P e.1 e.2)
    (hmeet : ∀ e ∈ extra, ∀ u, P e.1 u → P e.1 (mergeOver u e.2)) :
    ∀ e ∈ mergeFields base extra, P e.1 e.2 := by
  induction extra generalizing base with
  | nil => exact hbase
  | cons e rest ih =>
    obtain ⟨key, v⟩ := e
    have hvalue : P key (meet (base.lookup key) v) := by
      cases hlookup : base.lookup key with
      | none => exact hextra _ List.mem_cons_self
      | some u =>
        obtain ⟨own, hown, hkey⟩ := Entries.mem_of_lookup_eq_some hlookup
        exact hmeet _ List.mem_cons_self u (hsame (BEq.symm hkey) (hbase _ hown))
    rw [mergeFields_cons]
    exact ih (forall_mem_put (P := P) hsame hvalue hbase)
      (fun e he => hextra e (List.mem_cons_of_mem _ he))
      (fun e he => hmeet e (List.mem_cons_of_mem _ he))

end Invariant

end NodeForge.Schema
