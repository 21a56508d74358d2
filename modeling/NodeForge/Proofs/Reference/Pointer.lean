import NodeForge.Proofs.Document.Entries
import NodeForge.Proofs.Document.Parts
import NodeForge.Proofs.Document.Sameness
import NodeForge.Proofs.Outcome
import NodeForge.Reference.Expansion

/-!
# What references name

A reference names a part of the document (`target_mem_parts`), and the references that occur in a
value are those of the mappings among its parts (`mem_occurring`). So whatever is met by following
references occurs in the document already.
-/

namespace NodeForge.Reference

/-! ### The named node -/

theorem mem_parts_of_step {node next : Value} {key : Text} (h : step node key = .ok (some next)) :
    next ∈ node.parts := by
  unfold step at h
  split at h
  · next items =>
    have hmem : next ∈ items := by
      split at h
      · obtain ⟨place, -, h⟩ := Outcome.bind_eq_ok.1 h
        exact List.mem_of_getElem? (Outcome.pure_eq_ok.1 h)
      · cases h
    exact Value.member_mem_parts hmem
  · next es =>
    obtain ⟨own, hmem, -⟩ := Entries.mem_of_lookup_eq_some (Except.ok.inj h)
    exact Value.value_mem_parts hmem
  · cases h
  · cases h

theorem mem_parts_of_follow {reference : Text} {keys : List Text} {start node : Value}
    (h : follow id reference start keys = .ok node) : node ∈ start.parts := by
  induction keys generalizing start with
  | nil =>
    rw [follow, Except.ok.injEq] at h
    rw [h]
    exact Value.self_mem_parts node
  | cons key rest ih =>
    rw [follow] at h
    obtain ⟨next?, hstep, h⟩ := Outcome.bind_eq_ok.1 h
    rw [Outcome.lift_eq_ok] at hstep
    cases next? with
    | none => exact absurd h Outcome.failSpec_ne_ok
    | some next => exact Value.mem_parts_trans (mem_parts_of_step hstep) (ih h)

/-- A reference names a part of the document. -/
theorem target_mem_parts {document node : Value} {reference : Text}
    (h : target id document reference = .ok node) : node ∈ document.parts := by
  unfold target at h
  split at h
  · exact mem_parts_of_follow h
  · exact absurd h Outcome.failSpec_ne_ok

/-! ### Occurring references -/

theorem mem_occurringItems {r : Text} {xs : List Value} :
    r ∈ occurringItems xs ↔ ∃ x ∈ xs, r ∈ occurring x := by
  induction xs with
  | nil => simp [occurringItems]
  | cons x xs ih => simp [occurringItems, ih]

theorem mem_occurringFields {r : Text} {es : Fields} :
    r ∈ occurringFields es ↔ ∃ e ∈ es, r ∈ occurring e.2 := by
  induction es with
  | nil => simp [occurringFields]
  | cons e es ih => simp [occurringFields, ih]

theorem mem_occurring_list {r : Text} {xs : List Value} :
    r ∈ occurring (.list xs) ↔ ∃ x ∈ xs, r ∈ occurring x := by
  rw [occurring, mem_occurringItems]

theorem mem_occurring_map {r : Text} {es : Fields} :
    r ∈ occurring (.map es) ↔ ofFields? es = some r ∨ ∃ e ∈ es, r ∈ occurring e.2 := by
  rw [occurring, List.mem_append, Option.mem_toList, mem_occurringFields]

/-- What occurs in a part occurs in the whole. -/
theorem mem_occurring_of_mem_parts {r : Text} {v w : Value} (hw : w ∈ v.parts)
    (h : r ∈ occurring w) : r ∈ occurring v := by
  induction v using Value.parts_induction with
  | list xs ih =>
    rcases Value.mem_parts_list.1 hw with rfl | ⟨x, hx, hw⟩
    · exact h
    · exact mem_occurring_list.2 ⟨x, hx, ih x hx hw⟩
  | map es ih =>
    rcases Value.mem_parts_map.1 hw with rfl | ⟨e, he, hw⟩
    · exact h
    · exact mem_occurring_map.2 (Or.inr ⟨e, he, ih e he hw⟩)
  | _ =>
    -- any other value is its only part
    have hself := List.mem_singleton.1 hw
    rwa [hself] at h

/-- The entries beside a reference are some of the entries of its mapping. -/
theorem mem_of_mem_without {es : Fields} {e : Scalar × Value}
    (h : e ∈ Entries.without refKey es) : e ∈ es :=
  (List.mem_filter.1 h).1

end NodeForge.Reference
