import Mathlib.Data.Multiset.Basic
import NodeForge.Proofs.Document.Copies
import NodeForge.Proofs.Document.Parts
import NodeForge.Proofs.Document.Sameness
import NodeForge.Proofs.Document.Slots

/-!
# Values but for the order of their sets

A set has no order of its own, but its members come up in one, and making it anew can change it.
`Value.settled` puts the members of each set into an order that hangs on the members alone, and
leaves all else as it is: the keys of the mappings in their order, and the members of the lists. So
two values are settled to the same one exactly if they differ at most in the order in which the
members of their sets come up, and a value and its copy are (`settled_copied`).
-/

namespace NodeForge.Value

mutual

/-- The value with the members of each set in an order that hangs on the members alone. -/
noncomputable def settled : Value → Value
  | .scalar s => .scalar s
  | .list xs => .list (settledItems xs)
  | .pair a b => .pair (settled a) (settled b)
  | .map es => .map (settledFields es)
  | .set ms => .set (ms : Multiset Scalar).toList
  | .again shape n => .again shape n

/-- The settled members of a list. -/
noncomputable def settledItems : List Value → List Value
  | [] => []
  | x :: xs => settled x :: settledItems xs

/-- The settled values of a mapping. -/
noncomputable def settledFields : List (Scalar × Value) → List (Scalar × Value)
  | [] => []
  | (k, v) :: es => (k, settled v) :: settledFields es

end

/-! ### Kinds of values -/

theorem settled_set_iff {ms ns : List Scalar} :
    (Value.set ms).settled = (Value.set ns).settled ↔ ms.Perm ns := by
  rw [settled, settled, Value.set.injEq]
  constructor
  · intro h
    have hcoe := congrArg (fun row : List Scalar => (row : Multiset Scalar)) h
    simpa using hcoe
  · intro h
    rw [Multiset.coe_eq_coe.2 h]

theorem settledItems_eq_map (xs : List Value) : settledItems xs = xs.map settled := by
  induction xs with
  | nil => rfl
  | cons x xs ih => rw [settledItems, ih, List.map_cons]

theorem settledFields_eq_map (es : Fields) :
    settledFields es = es.map fun e => (e.1, e.2.settled) := by
  induction es with
  | nil => rfl
  | cons e es ih =>
    obtain ⟨k, v⟩ := e
    rw [settledFields, ih, List.map_cons]

theorem settled_list (xs : List Value) : (Value.list xs).settled = .list (xs.map settled) := by
  rw [settled, settledItems_eq_map]

theorem settled_map (es : Fields) : (Value.map es).settled = .map (settledFields es) := by
  rw [settled]

theorem fields?_settled (v : Value) : v.settled.fields? = v.fields?.map settledFields := by
  cases v <;> rfl

theorem items?_settled (v : Value) : v.settled.items? = v.items?.map (List.map settled) := by
  cases v with
  | list xs =>
    rw [settled_list]
    rfl
  | _ => rfl

theorem fields?_congr {v w : Value} (h : v.settled = w.settled) :
    v.fields?.map settledFields = w.fields?.map settledFields := by
  rw [← fields?_settled, h, fields?_settled]

theorem items?_congr {v w : Value} (h : v.settled = w.settled) :
    v.items?.map (List.map settled) = w.items?.map (List.map settled) := by
  rw [← items?_settled, h, items?_settled]

theorem exists_map_of_settled {es : Fields} {w : Value} (h : (Value.map es).settled = w.settled) :
    ∃ fs, w = .map fs ∧ settledFields es = settledFields fs := by
  obtain ⟨fs, hfs, heq⟩ := Option.map_eq_some_iff.1 (fields?_congr h).symm
  exact ⟨fs, fields?_eq_some.1 hfs, heq.symm⟩

theorem exists_list_of_settled {xs : List Value} {w : Value}
    (h : (Value.list xs).settled = w.settled) :
    ∃ ys, w = .list ys ∧ xs.map settled = ys.map settled := by
  obtain ⟨ys, hys, heq⟩ := Option.map_eq_some_iff.1 (items?_congr h).symm
  exact ⟨ys, items?_eq_some.1 hys, heq.symm⟩

/-! ### Entries -/

theorem keys_settledFields (es : Fields) : Entries.keys (settledFields es) = Entries.keys es := by
  rw [settledFields_eq_map, Entries.keys, List.map_map]
  rfl

theorem lookup_settledFields (k : Scalar) (es : Fields) :
    (settledFields es).lookup k = (es.lookup k).map settled := by
  induction es with
  | nil => rfl
  | cons e es ih =>
    obtain ⟨key, v⟩ := e
    rw [settledFields, List.lookup_cons, List.lookup_cons, ih]
    cases k == key <;> rfl

theorem settledFields_put (key : Scalar) (v : Value) (es : Fields) :
    settledFields (Entries.put key v es) = Entries.put key v.settled (settledFields es) := by
  rw [settledFields_eq_map, settledFields_eq_map, Entries.put_map settled]

/-- Two mappings are the same if they have the same keys, in the same order, and the same value
under each. -/
theorem settledFields_ext {es fs : Fields} (hes : Entries.Apart es)
    (hkeys : Entries.keys es = Entries.keys fs)
    (h : ∀ k, (es.lookup k).map settled = (fs.lookup k).map settled) :
    settledFields es = settledFields fs := by
  have hapart {gs : Fields} (hgs : Entries.keys gs = Entries.keys es) :
      (Entries.keys (settledFields gs)).Pairwise fun a b => (a == b) = false := by
    rw [keys_settledFields, hgs]
    exact hes
  rw [Entries.eq_filterMap_lookup (hapart rfl), Entries.eq_filterMap_lookup (hapart hkeys.symm),
    keys_settledFields, keys_settledFields, hkeys]
  refine List.filterMap_congr fun k _ => ?_
  rw [lookup_settledFields, lookup_settledFields, h]

/-! ### Copies -/

mutual

/-- Making a value anew changes nothing but the order of its sets. -/
theorem settled_copied : ∀ v : Value, v.copied.settled = v.settled
  | .scalar _ => rfl
  | .list xs => by rw [copied, settled, settled, settledItems_copiedItems xs]
  | .pair a b => by rw [copied, settled, settled, settled_copied a, settled_copied b]
  | .map es => by rw [copied, settled, settled, settledFields_copiedFields es]
  | .set ms => settled_set_iff.2 (Slots.inOrder_perm ms)
  | .again _ _ => rfl

theorem settledItems_copiedItems : ∀ xs : List Value,
    settledItems (copiedItems xs) = settledItems xs
  | [] => rfl
  | x :: xs => by
    rw [copiedItems, settledItems, settledItems, settled_copied x, settledItems_copiedItems xs]

theorem settledFields_copiedFields : ∀ es : List (Scalar × Value),
    settledFields (copiedFields es) = settledFields es
  | [] => rfl
  | (_, v) :: es => by
    rw [copiedFields, settledFields, settledFields, settled_copied v, settledFields_copiedFields es]

end

end NodeForge.Value
