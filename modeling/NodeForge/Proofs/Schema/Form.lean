import NodeForge.Proofs.Outcome
import NodeForge.Schema.Form

/-!
# The fields of a form

A form has one field for every visible property of its schema, in their order, under the folded name
of the property, and no two of its fields have one name (`formFields_spec`). The names in use are
handed on from each property to the next, so the induction speaks about them too.
-/

namespace NodeForge.Schema

/-- Whether a field is made from a property: under the folded name, with the form of its schema. -/
structure FormField.IsFrom (method : Text) (property : Scalar × Value) (f : FormField) : Prop where
  origin : property.1 = .str f.origin
  name : f.name = Naming.field f.origin
  schema : formOfProperty method property.2 = .ok f.schema

/-- The first visible property makes the first field, under a name that is new. -/
theorem formFields_cons_of_shown {method : Text} {taken : List (Text × Text)}
    {e : Scalar × Value} {rest : List (Scalar × Value)} {fields : List FormField}
    (hshown : isShown method e.2 = true)
    (h : formFields method taken (e :: rest) = .ok fields) :
    ∃ f others, fields = f :: others ∧ f.IsFrom method e ∧ taken.lookup f.name = none ∧
      formFields method ((f.name, f.origin) :: taken) rest = .ok others := by
  rw [formFields, hshown] at h
  simp only [Bool.not_true, Bool.false_eq_true, if_false] at h
  obtain ⟨name, hname, h⟩ := Outcome.bind_eq_ok.1 h
  obtain ⟨origin, horigin, h⟩ := Outcome.bind_eq_ok.1 h
  rw [Outcome.lift_eq_ok, Outcome.asText_eq_ok] at horigin
  rw [Outcome.lift_eq_ok, fieldName, Outcome.map_eq_ok] at hname
  obtain ⟨text, htext, hname⟩ := hname
  rw [Outcome.asText_eq_ok, horigin, Scalar.str.injEq] at htext
  rw [← htext] at hname
  split at h
  · exact absurd h Outcome.failSpec_ne_ok
  · next hnew =>
    obtain ⟨schema, hschema, h⟩ := Outcome.bind_eq_ok.1 h
    obtain ⟨others, hothers, h⟩ := Outcome.bind_eq_ok.1 h
    rw [Outcome.pure_eq_ok] at h
    exact ⟨⟨name, origin, schema⟩, others, h.symm, ⟨horigin, hname.symm, hschema⟩, hnew, hothers⟩

/-- **One field for each visible property.** The fields are made from the visible properties one by
one, and their names are different from each other and from the names in use. -/
theorem formFields_spec {method : Text} {taken : List (Text × Text)}
    {properties : List (Scalar × Value)} {fields : List FormField}
    (h : formFields method taken properties = .ok fields) :
    List.Forall₂ (FormField.IsFrom method) (properties.filter fun e => isShown method e.2) fields ∧
      (fields.map FormField.name).Nodup ∧ ∀ f ∈ fields, taken.lookup f.name = none := by
  induction properties generalizing taken fields with
  | nil =>
    rw [formFields, Except.ok.injEq] at h
    rw [← h]
    exact ⟨.nil, .nil, by simp⟩
  | cons e rest ih =>
    by_cases hshown : isShown method e.2 = true
    · obtain ⟨f, others, rfl, hfrom, hnew, hothers⟩ := formFields_cons_of_shown hshown h
      obtain ⟨hrest, hnodup, htaken⟩ := ih hothers
      have hfresh : ∀ g ∈ others, taken.lookup g.name = none ∧ g.name ≠ f.name := by
        intro g hg
        -- the name of the first field counts as taken for the others
        have hlookup := htaken g hg
        rw [List.lookup_cons] at hlookup
        split at hlookup
        · cases hlookup
        · next hne => exact ⟨hlookup, by simpa using hne⟩
      refine ⟨?_, ?_, ?_⟩
      · rw [List.filter_cons, if_pos hshown]
        exact .cons hfrom hrest
      · rw [List.map_cons, List.nodup_cons]
        refine ⟨fun hmem => ?_, hnodup⟩
        obtain ⟨g, hg, hname⟩ := List.mem_map.1 hmem
        exact (hfresh g hg).2 hname
      · intro g hg
        rcases List.mem_cons.1 hg with rfl | hg
        · exact hnew
        · exact (hfresh g hg).1
    -- a hidden property makes no field and takes no name
    · rw [formFields, if_pos (by simpa using hshown)] at h
      rw [List.filter_cons, if_neg hshown]
      exact ih h

end NodeForge.Schema
