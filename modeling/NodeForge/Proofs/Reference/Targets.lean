import NodeForge.Proofs.Reference.Pointer

/-!
# What a reference can lead to

Following a reference breaks off at the first node that has no step by the next key
(`follow_eq_error_iff`). So a local reference of a document in which no container holds itself names
a part of it, or cannot be resolved, or is misread: digits lead into a list, but make no number
(`target_eq_fault_iff`, `target_cases`).
-/

namespace NodeForge.Reference

/-! ### Steps -/

/-- Whether a row of digits makes no number that can be read: it is too long, or one of its signs
has no decimal value. -/
def IsUnreadable (key : Text) : Prop :=
  Digits.longest < key.length ∨ ∃ s ∈ key, s.char?.bind Letter.decimalValue? = none

instance (key : Text) : Decidable (IsUnreadable key) :=
  inferInstanceAs (Decidable (_ ∨ _))

/-- Reading digits one by one fails in one way only. -/
theorem mapM_decimalValue?_eq_error_iff {key : Text} {f : Fault} :
    key.mapM (fun c => orFault .badContent (c.char?.bind Letter.decimalValue?)) = .error f ↔
      (∃ s ∈ key, s.char?.bind Letter.decimalValue? = none) ∧ f = .badContent := by
  constructor
  · intro h
    obtain ⟨s, hs, hfail⟩ := Outcome.exists_error_of_mapM h
    obtain ⟨hnone, rfl⟩ := Outcome.orFault_eq_error.1 hfail
    exact ⟨⟨s, hs, hnone⟩, rfl⟩
  · rintro ⟨⟨s, hs, hnone⟩, rfl⟩
    cases h : key.mapM fun c => orFault .badContent (c.char?.bind Letter.decimalValue?) with
    | ok digits =>
      obtain ⟨d, -, hd⟩ := Outcome.exists_ok_of_mem h hs
      rw [Outcome.orFault_eq_ok, hnone] at hd
      cases hd
    | error g =>
      obtain ⟨s', -, hfail⟩ := Outcome.exists_error_of_mapM h
      rw [(Outcome.orFault_eq_error.1 hfail).2]

theorem placeOf_eq_error_iff {key : Text} {f : Fault} :
    placeOf key = .error f ↔ IsUnreadable key ∧ f = .badContent := by
  unfold placeOf IsUnreadable
  by_cases hlong : Digits.longest < key.length
  · rw [if_pos hlong, or_iff_left_of_imp (fun _ => hlong)]
    show Except.error Fault.badContent = .error f ↔ _
    rw [Except.error.injEq, eq_comm, iff_and_self]
    exact fun _ => hlong
  · rw [if_neg hlong, or_iff_right hlong, ← mapM_decimalValue?_eq_error_iff]
    exact Outcome.bind_pure_eq_error

/-- A step fails in a list, by digits that make no number, and at the mark of a container. -/
theorem step_eq_error_iff {node : Value} {key : Text} {f : Fault} :
    step node key = .error f ↔
      (∃ items, node = .list items ∧ isNumeral key = true ∧ IsUnreadable key ∧ f = .badContent) ∨
        ∃ shape n, node = .again shape n ∧ f = .endless := by
  cases node with
  | list items =>
    rw [step]
    by_cases hnumeral : isNumeral key = true
    · rw [if_pos hnumeral, Outcome.bind_pure_eq_error, placeOf_eq_error_iff]
      simp [hnumeral]
    · rw [if_neg hnumeral]
      simp [hnumeral]
  | again shape n =>
    rw [step, Except.error.injEq]
    simp [eq_comm (a := f)]
  | _ => simp [step]

/-! ### Ways -/

section

variable {enter : Value → Value} {reference : Text} {start : Value} {keys : List Text} {f : Failure}

/-- Whether a node has no step by a key, or none that can be read, and how following a reference
fails then. -/
def BreaksOff (enter : Value → Value) (reference : Text) (node : Value) (key : Text)
    (f : Failure) : Prop :=
  (step (enter node) key = .ok none ∧ f = .spec (.unresolvableReference reference)) ∨
    ∃ g, step (enter node) key = .error g ∧ f = .fault g

/-- A way fails exactly if it breaks off at a node that it leads to. -/
theorem follow_eq_error_iff :
    follow enter reference start keys = .error f ↔
      ∃ taken key rest node, keys = taken ++ key :: rest ∧
        follow enter reference start taken = .ok node ∧ BreaksOff enter reference node key f := by
  induction keys generalizing start with
  | nil =>
    rw [follow]
    refine iff_of_false (fun h => by cases h) ?_
    rintro ⟨taken, key, rest, node, hkeys, -⟩
    cases taken <;> cases hkeys
  | cons key rest ih =>
    constructor
    · intro h
      rw [follow] at h
      rcases Outcome.bind_eq_error.1 h with hstep | ⟨next?, hstep, h⟩
      · exact ⟨[], key, rest, start, rfl, rfl, Or.inr (Outcome.lift_eq_error.1 hstep)⟩
      · rw [Outcome.lift_eq_ok] at hstep
        cases next? with
        | none =>
          exact ⟨[], key, rest, start, rfl, rfl, Or.inl ⟨hstep, (Except.error.inj h).symm⟩⟩
        | some next =>
          obtain ⟨taken, key', rest', node, rfl, hnode, hbreaks⟩ := ih.1 h
          refine ⟨key :: taken, key', rest', node, rfl, ?_, hbreaks⟩
          rw [follow, hstep]
          exact hnode
    · rintro ⟨taken, key', rest', node, hkeys, hnode, hbreaks⟩
      cases taken with
      | nil =>
        obtain ⟨rfl, rfl⟩ := List.cons.inj hkeys
        rw [follow, Except.ok.injEq] at hnode
        rw [follow, hnode]
        rcases hbreaks with ⟨hstep, rfl⟩ | ⟨g, hstep, rfl⟩ <;> rw [hstep] <;> rfl
      | cons first taken =>
        obtain ⟨rfl, rfl⟩ := List.cons.inj hkeys
        rw [follow] at hnode ⊢
        obtain ⟨next?, hstep, hnode⟩ := Outcome.bind_eq_ok.1 hnode
        rw [Outcome.lift_eq_ok] at hstep
        rw [hstep]
        cases next? with
        | none => exact absurd hnode Outcome.failSpec_ne_ok
        | some next => exact ih.2 ⟨taken, key', rest', node, rfl, hnode, hbreaks⟩

end

/-! ### References -/

section

variable {document : Value} {reference : Text}

/-- Whether a reference leads into a list by digits that make no number. -/
def IsMisread (document : Value) (reference : Text) : Prop :=
  ∃ taken key rest items, steps reference = taken ++ key :: rest ∧
    follow id reference document taken = .ok (.list items) ∧ isNumeral key = true ∧
    IsUnreadable key

/-- Where no container holds itself, nothing but digits that make no number can be in the way of
finding out what a reference names. -/
theorem target_eq_fault_iff (hended : ∀ shape n, Value.again shape n ∉ document.parts)
    {f : Fault} : target id document reference = .error (.fault f) ↔
      Text.startsWith "#" reference = true ∧ IsMisread document reference ∧ f = .badContent := by
  unfold target
  by_cases hlocal : Text.startsWith "#" reference = true
  · rw [if_pos hlocal, follow_eq_error_iff, and_iff_right hlocal]
    constructor
    · rintro ⟨taken, key, rest, node, hkeys, hnode, ⟨-, hf⟩ | ⟨g, hstep, hf⟩⟩
      · cases hf
      · cases hf
        rcases step_eq_error_iff.1 hstep with ⟨items, hlist, hnumeral, hunreadable, rfl⟩ |
          ⟨shape, n, hmark, -⟩
        · rw [id] at hlist
          rw [hlist] at hnode
          exact ⟨⟨taken, key, rest, items, hkeys, hnode, hnumeral, hunreadable⟩, rfl⟩
        · rw [id] at hmark
          rw [hmark] at hnode
          exact absurd (mem_parts_of_follow hnode) (hended shape n)
    · rintro ⟨⟨taken, key, rest, items, hkeys, hnode, hnumeral, hunreadable⟩, rfl⟩
      refine ⟨taken, key, rest, _, hkeys, hnode, Or.inr ⟨_, ?_, rfl⟩⟩
      exact step_eq_error_iff.2 (Or.inl ⟨items, rfl, hnumeral, hunreadable, rfl⟩)
  · rw [if_neg hlocal]
    exact iff_of_false nofun fun h => hlocal h.1

/-- A local reference names a part of the document, cannot be resolved, or meets a fault. -/
theorem target_cases (document : Value) (hlocal : Text.startsWith "#" reference = true) :
    (∃ node ∈ document.parts, target id document reference = .ok node) ∨
      target id document reference = .error (.spec (.unresolvableReference reference)) ∨
      ∃ f, target id document reference = .error (.fault f) := by
  cases h : target id document reference with
  | ok node => exact Or.inl ⟨node, target_mem_parts h, rfl⟩
  | error f =>
    rw [target, if_pos hlocal] at h
    obtain ⟨taken, key, rest, node, -, -, ⟨-, rfl⟩ | ⟨g, -, rfl⟩⟩ := follow_eq_error_iff.1 h
    · exact Or.inr (Or.inl rfl)
    · exact Or.inr (Or.inr ⟨g, rfl⟩)

theorem target_eq_error_of_not_local (h : ¬ Text.startsWith "#" reference = true) :
    target id document reference = .error (.spec (.externalReference reference)) := by
  rw [target, if_neg h]
  rfl

end

end NodeForge.Reference
