import NodeForge.Proofs.Reference.Targets
import NodeForge.Proofs.Reference.Visits
import NodeForge.Proofs.Reference.Ways

/-!
# How an expansion ends

An expansion comes to an end whatever its references name, nodes around them included
(`expand_terminates`).

It fails exactly if one of its visits fails by itself (`Solves.exists_failsAt`,
`Solves.exists_ok_iff`). Where no container holds itself, this is because a reference cannot be
resolved, or for one of two faults: digits that make no number lead into a list, or a reference is
met inside its own expansion and names no mapping (`expand_fails`).
-/

namespace NodeForge.Reference

variable {document : Value} {walk : Visit → Except Failure Value} {p q : Visit} {f : Failure}

/-! ### Failing -/

/-- Whether a visit fails by itself: it is at the mark of a container, at a reference that cannot be
followed, or at one that is inside its own expansion and names no mapping. -/
inductive FailsAt (document : Value) : Visit → Failure → Prop
  | mark {active : List Text} (shape : Shape) (n : Nat) :
      FailsAt document ⟨active, .again shape n⟩ (.fault .endless)
  | unresolved {active : List Text} {es : Fields} {reference : Text} {f : Failure} :
      ofFields? es = some reference → target id document reference = .error f →
      FailsAt document ⟨active, .map es⟩ f
  | circular {active : List Text} {es : Fields} {reference : Text} {node : Value} :
      ofFields? es = some reference → reference ∈ active →
      target id document reference = .ok node → node.fields? = none →
      FailsAt document ⟨active, .map es⟩ (.fault .noSuchMember)

/-- A visit that fails by itself fails whatever is visited from there. -/
theorem level_eq_error_of_failsAt (h : FailsAt document p f) :
    level document walk p = .error f := by
  cases h with
  | mark => rfl
  | unresolved hes htarget =>
    rw [level_map_of_some hes, resolved, inPlace, htarget]
    split <;> rfl
  | circular hes hactive htarget hnode =>
    rw [level_map_of_some hes, resolved, if_pos (List.contains_iff_mem.2 hactive), inPlace, htarget]
    rename_i node
    cases node with
    | map es => cases hnode
    | _ => rfl

/-- A visit that succeeds leads to visits that do. -/
theorem exists_ok_of_calls (hcall : Calls document walk p q) {w : Value}
    (h : level document walk p = .ok w) : ∃ u, walk q = .ok u := by
  cases hcall with
  | member hx =>
    rw [level_list, Outcome.map_eq_ok] at h
    obtain ⟨ys, hys, -⟩ := h
    obtain ⟨y, -, hy⟩ := Outcome.exists_ok_of_mem hys hx
    exact ⟨y, hy⟩
  | value hes he =>
    rw [level_map_of_none hes, Outcome.map_eq_ok] at h
    obtain ⟨fs, hfs, -⟩ := h
    obtain ⟨entry, -, hentry⟩ := Outcome.exists_ok_of_mem hfs he
    obtain ⟨u, hu, -⟩ := Outcome.map_eq_ok.1 hentry
    exact ⟨u, hu⟩
  | follow hes hinactive htarget =>
    rw [level_map_of_some hes] at h
    obtain ⟨u, hu, -⟩ := Outcome.bind_eq_ok.1 h
    rw [resolved, if_neg (mt List.contains_iff_mem.1 hinactive), htarget] at hu
    exact ⟨u, hu⟩
  | beside hes hfs =>
    rw [level_map_of_some hes, hfs] at h
    obtain ⟨-, ⟨⟩, h⟩ := Outcome.bind_eq_ok.1 h
    obtain ⟨siblings, hsiblings, -⟩ := Outcome.bind_eq_ok.1 h
    exact ⟨siblings, hsiblings⟩

/-- A mapping without a reference is expanded to a mapping. -/
theorem fields_of_level {active : List Text} {es : Fields} (hes : ofFields? es = none) {w : Value}
    (h : level document walk ⟨active, .map es⟩ = .ok w) : ∃ fs, w.fields = .ok fs := by
  rw [level_map_of_none hes, Outcome.map_eq_ok] at h
  obtain ⟨fs, -, rfl⟩ := h
  exact ⟨fs, rfl⟩

theorem inPlace_eq_error {reference : Text} (h : inPlace id document reference = .error f) :
    target id document reference = .error f ∨ ∃ node, target id document reference = .ok node ∧
      node.fields? = none ∧ f = .fault .noSuchMember := by
  rcases Outcome.bind_eq_error.1 h with htarget | ⟨node, htarget, h⟩
  · exact Or.inl htarget
  · refine Or.inr ⟨node, htarget, ?_⟩
    rw [Outcome.bind_pure_eq_error, Outcome.lift_eq_error] at h
    obtain ⟨g, hfields, rfl⟩ := h
    cases node with
    | map es => cases hfields
    | _ => exact ⟨rfl, congrArg _ (Except.error.inj hfields).symm⟩

/-- A reference fails where it stands, or at the node that it is followed to. -/
theorem failsAt_of_resolved {active : List Text} {es : Fields} {reference : Text}
    (hes : ofFields? es = some reference) (h : resolved document walk active reference = .error f) :
    FailsAt document ⟨active, .map es⟩ f ∨
      ∃ q, Calls document walk ⟨active, .map es⟩ q ∧ walk q = .error f := by
  unfold resolved at h
  split at h
  · next hactive =>
    rcases inPlace_eq_error h with htarget | ⟨node, htarget, hnode, rfl⟩
    · exact Or.inl (.unresolved hes htarget)
    · exact Or.inl (.circular hes (List.contains_iff_mem.1 hactive) htarget hnode)
  · next hinactive =>
    rcases Outcome.bind_eq_error.1 h with htarget | ⟨node, htarget, hnode⟩
    · exact Or.inl (.unresolved hes htarget)
    · exact Or.inr ⟨_, .follow hes (mt List.contains_iff_mem.2 hinactive) htarget, hnode⟩

/-- A visit that fails does so by itself, or one that it leads to fails. -/
theorem Solves.failsAt_or_exists_calls (h : Solves document walk) (hp : Reaches document walk p)
    (hf : walk p = .error f) :
    FailsAt document p f ∨ ∃ q, Calls document walk p q ∧ walk q = .error f := by
  rw [h p hp] at hf
  obtain ⟨active, node⟩ := p
  cases node with
  | list xs =>
    rw [level_list, Outcome.map_eq_error] at hf
    obtain ⟨x, hx, hf⟩ := Outcome.exists_error_of_mapM hf
    exact Or.inr ⟨_, .member hx, hf⟩
  | map es =>
    cases hes : ofFields? es with
    | none =>
      rw [level_map_of_none hes, Outcome.map_eq_error] at hf
      obtain ⟨e, he, hf⟩ := Outcome.exists_error_of_mapM hf
      exact Or.inr ⟨_, .value hes he, Outcome.map_eq_error.1 hf⟩
    | some reference =>
      rw [level_map_of_some hes] at hf
      rcases Outcome.bind_eq_error.1 hf with hresolved | ⟨w, hresolved, hf⟩
      · exact failsAt_of_resolved hes hresolved
      · cases w with
        | map fs =>
          have hbeside : Calls document walk ⟨active, .map es⟩
              ⟨active, .map (Entries.without refKey es)⟩ := .beside hes hresolved
          rcases Outcome.bind_eq_error.1 hf with hf | ⟨siblings, hsiblings, hf⟩
          · exact Or.inr ⟨_, hbeside, hf⟩
          · -- what stands beside a reference is expanded to a mapping
            rw [h _ (hp.tail hbeside)] at hsiblings
            obtain ⟨gs, hgs⟩ := fields_of_level (ofFields?_without es) hsiblings
            rw [hgs] at hf
            cases hf
        | _ => cases hf
  | again shape n =>
    rw [← Except.error.inj hf]
    exact Or.inl (.mark shape n)
  | _ => cases hf

/-- **Failing.** An expansion that fails does so as one of its visits does by itself. -/
theorem Solves.exists_failsAt (h : Solves document walk) (hp : Reaches document walk p)
    (hf : walk p = .error f) : ∃ q, Reaches document walk q ∧ FailsAt document q f := by
  induction p using (wellFounded_calls document walk).induction with
  | _ p ih =>
    rcases h.failsAt_or_exists_calls hp hf with hfails | ⟨q, hcall, hq⟩
    · exact ⟨p, hp, hfails⟩
    · exact ih q ⟨hp, hcall⟩ (hp.tail hcall) hq

/-- If the document is expanded, so is every node that is visited. -/
theorem Solves.exists_ok_of_reaches (h : Solves document walk)
    (hroot : ∃ w, walk ⟨[], document⟩ = .ok w) (hq : Reaches document walk q) :
    ∃ u, walk q = .ok u := by
  induction hq with
  | refl => exact hroot
  | tail hp hcall ih =>
    obtain ⟨w, hw⟩ := ih
    rw [h _ hp] at hw
    exact exists_ok_of_calls hcall hw

/-- **Succeeding.** An expansion succeeds exactly if none of its visits fails by itself. -/
theorem Solves.exists_ok_iff (h : Solves document walk) :
    (∃ w, walk ⟨[], document⟩ = .ok w) ↔
      ∀ q f, Reaches document walk q → ¬ FailsAt document q f := by
  constructor
  · intro hroot q f hq hfails
    obtain ⟨u, hu⟩ := h.exists_ok_of_reaches hroot hq
    rw [h q hq, level_eq_error_of_failsAt hfails] at hu
    cases hu
  · intro hnone
    cases hw : walk ⟨[], document⟩ with
    | ok w => exact ⟨w, rfl⟩
    | error f =>
      obtain ⟨q, hq, hfails⟩ := h.exists_failsAt .refl hw
      exact absurd hfails (hnone q f hq)

/-! ### Coming to an end -/

/-- A visit of a document in which no container holds itself is at no mark, and does not fail like
one. -/
theorem not_failsAt_endless (hended : ∀ shape n, Value.again shape n ∉ document.parts)
    (h : IsInside document p) : ¬ FailsAt document p (.fault .endless) := by
  intro hfails
  cases hfails with
  | mark shape n =>
    rcases h.part with hpart | ⟨es, -, hnode⟩
    · exact hended shape n hpart
    · cases hnode
  | unresolved _ htarget =>
    have hfault := ((target_eq_fault_iff hended).1 htarget).2.2
    cases hfault

/-- **Termination.** Each visit of an expansion leads to visits of smaller nodes inside the same
references, or of any node inside one more reference of the document. So there is no endless row of
visits, and what the expansion gives is the one solution of its levels. -/
theorem expand_terminates (hended : ∀ shape n, Value.again shape n ∉ document.parts) :
    (∀ walk p q, Reaches document walk p → Calls document walk p q → Descends document p q) ∧
      (∀ walk, WellFounded fun q p => Reaches document walk p ∧ Calls document walk p q) ∧
      (∀ w, expand document = w ↔ ∃ walk, Solves document walk ∧ walk ⟨[], document⟩ = w) ∧
      expand document ≠ .error (.fault .endless) := by
  have hsolves := solves_expandAt (Nat.le_refl (referenceCount document))
  refine ⟨fun walk p q hp hcall => descends_of_calls (IsInside.of_reaches hp) hcall,
    wellFounded_calls document, fun w => ⟨?_, ?_⟩, fun hfault => ?_⟩
  · rintro rfl
    exact ⟨_, hsolves, hsolves.eq_expand⟩
  · rintro ⟨walk, hwalk, rfl⟩
    exact hwalk.eq_expand.symm
  · rw [← hsolves.eq_expand] at hfault
    obtain ⟨q, hq, hfails⟩ := hsolves.exists_failsAt .refl hfault
    exact not_failsAt_endless hended (IsInside.of_reaches hq) hfails

/-- A document with a reference to the node around it, two references that name each other, and one
that is written in another way. -/
def knottedDocument : Value :=
  .record [
    ("self", .record [("$ref", .str "#/self"), ("own", .int 1)]),
    ("all", .list [.record [("$ref", .str "#")]]),
    ("one", .record [("next", .record [("$ref", .str "#/two")])]),
    ("two", .record [("next", .record [("$ref", .str "#//one/")]),
      ("beside", .record [("$ref", .str "#/one"), ("more", .record [("$ref", .str "#/two")])])])]

theorem expand_knottedDocument :
    (∀ shape n, Value.again shape n ∉ knottedDocument.parts) ∧
      (∀ walk p q, Reaches knottedDocument walk p → Calls knottedDocument walk p q →
        Descends knottedDocument p q) ∧
      (∃ v walk, Solves knottedDocument walk ∧ walk ⟨[], knottedDocument⟩ = .ok v ∧
        expand knottedDocument = .ok v) := by
  have hended := (by decide +kernel : IsPlain knottedDocument).ended
  obtain ⟨hdescends, -, hsolved, -⟩ := expand_terminates hended
  obtain ⟨v, hv⟩ := Outcome.isOk_iff.1 (by decide +kernel : (expand knottedDocument).isOk = true)
  obtain ⟨walk, hwalk, hroot⟩ := (hsolved _).1 hv
  exact ⟨hended, hdescends, v, walk, hwalk, hroot, hv⟩

/-! ### Faults -/

/-- Whether the expansion of a document comes to a visit. -/
def IsVisited (document : Value) : Visit → Prop :=
  Reaches document (expandAt document (referenceCount document))

/-- Whether a visit meets a fault: it is at a reference that is misread, or at one that is inside
its own expansion and names no mapping. -/
inductive MeetsFault (document : Value) : Visit → Fault → Prop
  | misread {active : List Text} {es : Fields} {reference : Text} :
      ofFields? es = some reference → Text.startsWith "#" reference = true →
      IsMisread document reference → MeetsFault document ⟨active, .map es⟩ .badContent
  | circular {active : List Text} {es : Fields} {reference : Text} {node : Value} :
      ofFields? es = some reference → reference ∈ active →
      target id document reference = .ok node → node.fields? = none →
      MeetsFault document ⟨active, .map es⟩ .noSuchMember

theorem failsAt_of_meetsFault (hended : ∀ shape n, Value.again shape n ∉ document.parts)
    {fault : Fault} (h : MeetsFault document p fault) : FailsAt document p (.fault fault) := by
  cases h with
  | misread hes hlocal hmisread =>
    exact .unresolved hes ((target_eq_fault_iff hended).2 ⟨hlocal, hmisread, rfl⟩)
  | circular hes hactive htarget hnode => exact .circular hes hactive htarget hnode

/-- A reference fails as it cannot be resolved, as it leads out of the document, or by a fault. -/
theorem spec_or_fault_of_target {reference : Text} (h : target id document reference = .error f) :
    (∃ cause, f = .spec cause) ∨ ∃ fault, f = .fault fault := by
  by_cases hlocal : Text.startsWith "#" reference = true
  · rcases target_cases document hlocal with ⟨node, -, hnode⟩ | hspec | ⟨fault, hfault⟩
    · rw [hnode] at h
      cases h
    · rw [hspec] at h
      exact Or.inl ⟨_, (Except.error.inj h).symm⟩
    · rw [hfault] at h
      exact Or.inr ⟨_, (Except.error.inj h).symm⟩
  · rw [target_eq_error_of_not_local hlocal] at h
    exact Or.inl ⟨_, (Except.error.inj h).symm⟩

/-- Where no container holds itself, a visit fails because of the description, or it meets a fault.
-/
theorem spec_or_meetsFault (hended : ∀ shape n, Value.again shape n ∉ document.parts)
    (hp : IsInside document p) (h : FailsAt document p f) :
    (∃ cause, f = .spec cause) ∨ ∃ fault, f = .fault fault ∧ MeetsFault document p fault := by
  cases h with
  | mark => exact absurd (.mark _ _) (not_failsAt_endless hended hp)
  | unresolved hes htarget =>
    refine (spec_or_fault_of_target htarget).imp_right ?_
    rintro ⟨fault, rfl⟩
    obtain ⟨hlocal, hmisread, rfl⟩ := (target_eq_fault_iff hended).1 htarget
    exact ⟨_, rfl, .misread hes hlocal hmisread⟩
  | circular hes hactive htarget hnode =>
    exact Or.inr ⟨_, rfl, .circular hes hactive htarget hnode⟩

/-- **Failures.** A local reference names a part of the document or cannot be resolved, unless it is
misread. The document is expanded or it is said why not, unless a visit is at a reference that is
misread, or at one that is met inside its own expansion and names no mapping; where one is, there is
no expansion. -/
theorem expand_fails (hended : ∀ shape n, Value.again shape n ∉ document.parts) :
    (∀ reference, Text.startsWith "#" reference = true →
      (target id document reference = .error (.fault .badContent) ↔
        IsMisread document reference) ∧
      (¬ IsMisread document reference →
        (∃ node ∈ document.parts, target id document reference = .ok node) ∨
          target id document reference = .error (.spec (.unresolvableReference reference)))) ∧
    ((∃ w, expand document = .ok w) ∨ (∃ cause, expand document = .error (.spec cause)) ∨
      ∃ q fault, IsVisited document q ∧ MeetsFault document q fault ∧
        expand document = .error (.fault fault)) ∧
    ∀ q fault, IsVisited document q → MeetsFault document q fault →
      ∀ w, expand document ≠ .ok w := by
  have hsolves := solves_expandAt (Nat.le_refl (referenceCount document))
  refine ⟨fun reference hlocal => ⟨?_, fun hread => ?_⟩, ?_, ?_⟩
  · rw [target_eq_fault_iff hended]
    simp [hlocal]
  · refine (target_cases document hlocal).imp_right (Or.resolve_right · ?_)
    rintro ⟨fault, hfault⟩
    exact hread ((target_eq_fault_iff hended).1 hfault).2.1
  · cases h : expand document with
    | ok w => exact Or.inl ⟨w, rfl⟩
    | error f =>
      rw [← hsolves.eq_expand] at h
      obtain ⟨q, hq, hfails⟩ := hsolves.exists_failsAt .refl h
      refine Or.inr ((spec_or_meetsFault hended (IsInside.of_reaches hq) hfails).imp ?_ ?_)
      · rintro ⟨cause, rfl⟩
        exact ⟨cause, rfl⟩
      · rintro ⟨fault, rfl, hmeets⟩
        exact ⟨q, fault, hq, hmeets, rfl⟩
  · intro q fault hq hmeets w hw
    rw [← hsolves.eq_expand] at hw
    exact hsolves.exists_ok_iff.1 ⟨w, hw⟩ q _ hq (failsAt_of_meetsFault hended hmeets)

/-- A document with a reference to the list that it stands in. -/
def loopedDocument : Value := .record [("a", .list [.record [("$ref", .str "#/a")]])]

/-- A reference to a place of too many digits in the list of this document. -/
def overlongReference : Text := written [.key "a", .place (10 ^ Digits.longest)]

theorem isMisread_overlongReference : IsMisread loopedDocument overlongReference := by
  have hkeys : steps overlongReference =
      [("a" : Text)] ++ Numeral.ofNat (10 ^ Digits.longest) :: [] := by
    refine steps_written fun s hs => ?_
    rcases List.mem_cons.1 hs with rfl | hs
    · rfl
    · rw [List.mem_singleton.1 hs]
      rfl
  have hlist : follow id overlongReference loopedDocument [("a" : Text)] =
      .ok (.list [.record [("$ref", .str "#/a")]]) := rfl
  have hplace : placeOf (Numeral.ofNat (10 ^ Digits.longest)) = .error .badContent := by
    rw [placeOf_ofNat, if_neg (Nat.lt_irrefl _)]
  exact ⟨_, _, _, _, hkeys, hlist, isNumeral_ofNat _, (placeOf_eq_error_iff.1 hplace).1⟩

theorem expand_loopedDocument :
    (∀ shape n, Value.again shape n ∉ loopedDocument.parts) ∧
      target id loopedDocument overlongReference = .error (.fault .badContent) ∧
      ∃ q, IsVisited loopedDocument q ∧ MeetsFault loopedDocument q .noSuchMember := by
  have hended := (by decide +kernel : IsPlain loopedDocument).ended
  obtain ⟨htargets, houtcome, -⟩ := expand_fails hended
  have htarget := (htargets overlongReference rfl).1.2 isMisread_overlongReference
  have hfault : expand loopedDocument = .error (.fault .noSuchMember) := rfl
  rw [hfault] at houtcome
  rcases houtcome with ⟨w, ⟨⟩⟩ | ⟨cause, ⟨⟩⟩ | ⟨q, fault, hq, hmeets, heq⟩
  cases heq
  exact ⟨hended, htarget, q, hq, hmeets⟩

/-- Neither a place of too many digits nor a reference to the list that it stands in is told as
something that is wrong with the description. -/
theorem faults_of_loopedDocument :
    Text.startsWith "#" overlongReference = true ∧
      target id loopedDocument overlongReference = .error (.fault .badContent) ∧
      expand loopedDocument = .error (.fault .noSuchMember) := by
  have hended := (by decide +kernel : IsPlain loopedDocument).ended
  exact ⟨rfl, (target_eq_fault_iff hended).2 ⟨rfl, isMisread_overlongReference, rfl⟩, rfl⟩

end NodeForge.Reference
