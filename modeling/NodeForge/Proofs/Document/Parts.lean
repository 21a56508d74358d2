import Mathlib.Data.List.Perm.Basic
import NodeForge.Document.Value

/-!
# The parts of a value

`Value.parts` lists a value with all that stands in it, at any depth, through lists and under the
keys of mappings. A pair is one part: what it holds is not gone into. Members are parts
(`member_mem_parts`, `value_mem_parts`), and a part of a part is one (`mem_parts_trans`). Members
have fewer parts than what they stand in (`length_parts_lt_list`, `length_parts_lt_map`).
-/

namespace NodeForge.Value

/-! ### Views -/

theorem fields?_eq_some {v : Value} {es : Fields} : v.fields? = some es ↔ v = .map es := by
  cases v <;> simp [Value.fields?]

theorem exists_str_iff {v : Value} : (∃ n, v = .str n) ↔ v.text?.isSome = true := by
  cases v with
  | scalar k => cases k <;> simp [Value.text?]
  | _ => simp [Value.text?]

/-! ### Parts -/

mutual

/-- A value and all values in it. -/
def parts : Value → List Value
  | .list xs => .list xs :: itemParts xs
  | .map es => .map es :: fieldParts es
  | v => [v]

/-- The parts of the members of a list. -/
def itemParts : List Value → List Value
  | [] => []
  | x :: xs => parts x ++ itemParts xs

/-- The parts of the values of a mapping. -/
def fieldParts : List (Scalar × Value) → List Value
  | [] => []
  | (_, v) :: es => parts v ++ fieldParts es

end

/-- Induction on a value through its lists and mappings. -/
@[elab_as_elim]
theorem parts_induction {P : Value → Prop} (v : Value)
    (scalar : ∀ s, P (.scalar s)) (pair : ∀ a b, P (.pair a b)) (set : ∀ ms, P (.set ms))
    (again : ∀ shape n, P (.again shape n)) (list : ∀ xs, (∀ x ∈ xs, P x) → P (.list xs))
    (map : ∀ es : Fields, (∀ e ∈ es, P e.2) → P (.map es)) : P v := by
  induction hsize : sizeOf v using Nat.strongRecOn generalizing v with
  | _ size ih =>
    cases v with
    | scalar s => exact scalar s
    | pair a b => exact pair a b
    | set ms => exact set ms
    | again shape n => exact again shape n
    | list xs =>
      refine list xs fun x hx => ih (sizeOf x) ?_ x rfl
      have hlt := List.sizeOf_lt_of_mem hx
      simp only [Value.list.sizeOf_spec] at hsize
      omega
    | map es =>
      refine map es fun e he => ih (sizeOf e.2) ?_ e.2 rfl
      have hlt := List.sizeOf_lt_of_mem he
      obtain ⟨k, v⟩ := e
      simp only [Value.map.sizeOf_spec, Prod.mk.sizeOf_spec] at hsize hlt
      simp only
      omega

@[simp] theorem self_mem_parts (v : Value) : v ∈ v.parts := by
  cases v <;> simp [parts]

theorem itemParts_eq_flatMap (xs : List Value) : itemParts xs = xs.flatMap parts := by
  induction xs with
  | nil => rfl
  | cons x xs ih => rw [itemParts, ih, List.flatMap_cons]

theorem fieldParts_eq_flatMap (es : Fields) : fieldParts es = es.flatMap fun e => e.2.parts := by
  induction es with
  | nil => rfl
  | cons e es ih => rw [fieldParts, ih, List.flatMap_cons]

theorem mem_parts_list {w : Value} {xs : List Value} :
    w ∈ (Value.list xs).parts ↔ w = .list xs ∨ ∃ x ∈ xs, w ∈ x.parts := by
  rw [parts, List.mem_cons, itemParts_eq_flatMap, List.mem_flatMap]

theorem mem_parts_map {w : Value} {es : Fields} :
    w ∈ (Value.map es).parts ↔ w = .map es ∨ ∃ e ∈ es, w ∈ e.2.parts := by
  rw [parts, List.mem_cons, fieldParts_eq_flatMap, List.mem_flatMap]

theorem member_mem_parts {x : Value} {xs : List Value} (h : x ∈ xs) :
    x ∈ (Value.list xs).parts :=
  mem_parts_list.2 (Or.inr ⟨x, h, self_mem_parts x⟩)

theorem value_mem_parts {e : Scalar × Value} {es : Fields} (h : e ∈ es) :
    e.2 ∈ (Value.map es).parts :=
  mem_parts_map.2 (Or.inr ⟨e, h, self_mem_parts e.2⟩)

/-- The parts of a part are parts. -/
theorem mem_parts_trans {u v w : Value} (hw : w ∈ v.parts) (hu : u ∈ w.parts) : u ∈ v.parts := by
  induction v using parts_induction with
  | list xs ih =>
    rcases mem_parts_list.1 hw with rfl | ⟨x, hx, hw⟩
    · exact hu
    · exact mem_parts_list.2 (Or.inr ⟨x, hx, ih x hx hw⟩)
  | map es ih =>
    rcases mem_parts_map.1 hw with rfl | ⟨e, he, hw⟩
    · exact hu
    · exact mem_parts_map.2 (Or.inr ⟨e, he, ih e he hw⟩)
  | _ =>
    -- any other value is its only part
    have hself := List.mem_singleton.1 hw
    rwa [hself] at hu

/-! ### Numbers of parts -/

theorem length_parts_lt_list {x : Value} {xs : List Value} (h : x ∈ xs) :
    x.parts.length < (Value.list xs).parts.length := by
  have hsub : x.parts.Sublist (itemParts xs) := by
    rw [itemParts_eq_flatMap]
    exact List.sublist_flatten_of_mem (List.mem_map_of_mem h)
  have hle := hsub.length_le
  rw [parts, List.length_cons]
  omega

theorem length_parts_le_fieldParts {e : Scalar × Value} {es : Fields} (h : e ∈ es) :
    e.2.parts.length ≤ (fieldParts es).length := by
  have hsub : e.2.parts.Sublist (fieldParts es) := by
    rw [fieldParts_eq_flatMap]
    exact List.sublist_flatten_of_mem (List.mem_map.2 ⟨e, h, rfl⟩)
  exact hsub.length_le

theorem length_parts_lt_map {e : Scalar × Value} {es : Fields} (h : e ∈ es) :
    e.2.parts.length < (Value.map es).parts.length := by
  have hle := length_parts_le_fieldParts h
  rw [parts, List.length_cons]
  omega

/-- A mapping has fewer parts without the entries under a key that it has. -/
theorem length_parts_without_lt {key : Scalar} {e : Scalar × Value} {es : Fields} (h : e ∈ es)
    (hkey : (e.1 == key) = true) :
    (Value.map (Entries.without key es)).parts.length < (Value.map es).parts.length := by
  -- the parts come apart into those of the entries that are kept and those of the other ones
  have hsplit :=
    (List.filter_append_perm (fun e : Scalar × Value => !(e.1 == key)) es).flatMap_right
      fun e => e.2.parts
  rw [List.flatMap_append, ← fieldParts_eq_flatMap, ← fieldParts_eq_flatMap,
    ← fieldParts_eq_flatMap] at hsplit
  have hsum := hsplit.length_eq
  rw [List.length_append] at hsum
  have hdropped := length_parts_le_fieldParts
    (List.mem_filter (p := fun e : Scalar × Value => !!(e.1 == key)).2 ⟨h, by simp [hkey]⟩)
  have hpos := List.length_pos_of_mem (self_mem_parts e.2)
  rw [parts, parts, List.length_cons, List.length_cons, Entries.without]
  omega

end NodeForge.Value
