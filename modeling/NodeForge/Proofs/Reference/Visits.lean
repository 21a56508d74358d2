import Mathlib.Data.Prod.Lex
import Mathlib.Logic.Relation
import Mathlib.Order.WellFounded
import NodeForge.Proofs.Reference.Expansion

/-!
# The visits of an expansion

An expansion visits one node after the other, each of them inside the expansion of some active
references. `level` is what is done at a single visit, where another function expands the nodes that
are visited from there, and `Calls` says which visits these are. A reference leads anywhere in the
document, also to a node around it, so the nodes do not get smaller along the way.

What gets smaller is the number of references that are not active, and at the same number the node:
a visit goes to a node with fewer parts under the same active references, or makes active a
reference of the document that was not (`descends_of_calls`). Both need that all that is visited
comes from the document (`IsInside`). So there is no endless row of visits (`wellFounded_calls`),
and the levels have one solution, which `expand` gives (`solves_expandAt`, `Solves.eq_expand`).
-/

namespace NodeForge.Reference

variable {document : Value}

/-! ### Levels -/

/-- A visit of an expansion: the node, and the references that it is inside the expansion of. -/
structure Visit where
  active : List Text
  node : Value

/-- What is put in place of a reference, where `walk` expands the nodes that are visited. -/
def resolved (document : Value) (walk : Visit → Except Failure Value) (active : List Text)
    (reference : Text) : Except Failure Value :=
  if active.contains reference then inPlace id document reference
  else do walk ⟨reference :: active, ← target id document reference⟩

/-- What is put in place of a reference, with the expanded entries beside it written over it, where
it is a mapping. -/
def overlaid (walk : Visit → Except Failure Value) (active : List Text) (es : Fields) :
    Value → Except Failure Value
  | .map fs => do
    let siblings ← walk ⟨active, .map (Entries.without refKey es)⟩
    return .map (Entries.putAll fs (← siblings.fields))
  | w => .ok w

/-- What is done at a single visit, where `walk` expands the nodes that are visited from there. -/
def level (document : Value) (walk : Visit → Except Failure Value) (visit : Visit) :
    Except Failure Value :=
  match visit.node with
  | .list xs => Value.list <$> xs.mapM fun x => walk ⟨visit.active, x⟩
  | .map es =>
    match ofFields? es with
    | none => Value.map <$> es.mapM fun e => Prod.mk e.1 <$> walk ⟨visit.active, e.2⟩
    | some reference => do
      overlaid walk visit.active es (← resolved document walk visit.active reference)
  | .again _ _ => .error (.fault .endless)
  | v => .ok v

/-- Whether a visit leads to another one, where `walk` expands nodes. The entries beside a reference
are visited as a mapping of their own, if a mapping is put in place of the reference. -/
inductive Calls (document : Value) (walk : Visit → Except Failure Value) : Visit → Visit → Prop
  | member {active : List Text} {xs : List Value} {x : Value} :
      x ∈ xs → Calls document walk ⟨active, .list xs⟩ ⟨active, x⟩
  | value {active : List Text} {es : Fields} {e : Scalar × Value} :
      ofFields? es = none → e ∈ es → Calls document walk ⟨active, .map es⟩ ⟨active, e.2⟩
  | follow {active : List Text} {es : Fields} {reference : Text} {node : Value} :
      ofFields? es = some reference → reference ∉ active →
      target id document reference = .ok node →
      Calls document walk ⟨active, .map es⟩ ⟨reference :: active, node⟩
  | beside {active : List Text} {es fs : Fields} {reference : Text} :
      ofFields? es = some reference → resolved document walk active reference = .ok (.map fs) →
      Calls document walk ⟨active, .map es⟩ ⟨active, .map (Entries.without refKey es)⟩

/-- The visits that an expansion of the document comes to. -/
def Reaches (document : Value) (walk : Visit → Except Failure Value) : Visit → Prop :=
  Relation.ReflTransGen (Calls document walk) ⟨[], document⟩

/-- Whether a function expands what is visited level by level. -/
def Solves (document : Value) (walk : Visit → Except Failure Value) : Prop :=
  ∀ p, Reaches document walk p → walk p = level document walk p

section

variable {walk walk' : Visit → Except Failure Value} {p q : Visit} {active : List Text}
  {es : Fields} {reference : Text}

theorem level_list (xs : List Value) : level document walk ⟨active, .list xs⟩ =
    Value.list <$> xs.mapM fun x => walk ⟨active, x⟩ := rfl

theorem level_map_of_none (hes : ofFields? es = none) : level document walk ⟨active, .map es⟩ =
    Value.map <$> es.mapM fun e => Prod.mk e.1 <$> walk ⟨active, e.2⟩ := by
  simp only [level, hes]

theorem level_map_of_some (hes : ofFields? es = some reference) :
    level document walk ⟨active, .map es⟩ =
      (do overlaid walk active es (← resolved document walk active reference)) := by
  simp only [level, hes]

/-- A level uses nothing but the visits that it leads to. -/
theorem level_congr (h : ∀ q, Calls document walk p q → walk q = walk' q) :
    level document walk p = level document walk' p := by
  obtain ⟨active, node⟩ := p
  cases node with
  | list xs => rw [level_list, level_list, Outcome.mapM_congr fun x hx => h _ (.member hx)]
  | map es =>
    cases hes : ofFields? es with
    | none =>
      have hvalues : ∀ e ∈ es, Prod.mk e.1 <$> walk ⟨active, e.2⟩ =
          Prod.mk e.1 <$> walk' ⟨active, e.2⟩ :=
        fun e he => congrArg _ (h _ (.value hes he))
      rw [level_map_of_none hes, level_map_of_none hes, Outcome.mapM_congr hvalues]
    | some reference =>
      have hresolved : resolved document walk active reference =
          resolved document walk' active reference := by
        unfold resolved
        split
        · rfl
        · next hinactive =>
          cases htarget : target id document reference with
          | error f => rfl
          | ok node =>
            exact h _ (.follow hes (fun hmem => hinactive (List.contains_iff_mem.2 hmem)) htarget)
      rw [level_map_of_some hes, level_map_of_some hes, ← hresolved]
      cases hw : resolved document walk active reference with
      | error f => rfl
      | ok w =>
        cases w with
        | map fs =>
          show overlaid walk active es (.map fs) = overlaid walk' active es (.map fs)
          rw [overlaid, overlaid, h _ (.beside hes hw)]
        | _ => rfl
  | _ => rfl

end

/-! ### What is visited -/

/-- Whether a visit is inside a document: the active references are different ones of the document,
and the node is a part of it, or what stands beside a reference in a part of it. -/
structure IsInside (document : Value) (p : Visit) : Prop where
  nodup : p.active.Nodup
  known : ∀ r ∈ p.active, r ∈ occurring document
  part : p.node ∈ document.parts ∨
    ∃ es, Value.map es ∈ document.parts ∧ p.node = .map (Entries.without refKey es)

section

variable {walk : Visit → Except Failure Value} {p q : Visit}

theorem isInside_document (document : Value) : IsInside document ⟨[], document⟩ where
  nodup := List.nodup_nil
  known _ hr := nomatch hr
  part := Or.inl (Value.self_mem_parts document)

/-- The references of a visited node are references of the document. -/
theorem IsInside.occurs (h : IsInside document p) {r : Text} (hr : r ∈ occurring p.node) :
    r ∈ occurring document := by
  rcases h.part with hpart | ⟨es, hes, hnode⟩
  · exact mem_occurring_of_mem_parts hpart hr
  · rw [hnode] at hr
    refine mem_occurring_of_mem_parts hes (mem_occurring_map.2 (Or.inr ?_))
    rcases mem_occurring_map.1 hr with hsome | ⟨e, he, hr⟩
    · rw [ofFields?_without] at hsome
      cases hsome
    · exact ⟨e, mem_of_mem_without he, hr⟩

theorem IsInside.call (h : IsInside document p) (hcall : Calls document walk p q) :
    IsInside document q := by
  cases hcall with
  | member hx =>
    refine ⟨h.nodup, h.known, Or.inl ?_⟩
    rcases h.part with hpart | ⟨es, -, hnode⟩
    · exact Value.mem_parts_trans hpart (Value.member_mem_parts hx)
    · cases hnode
  | value _ he =>
    refine ⟨h.nodup, h.known, Or.inl ?_⟩
    rcases h.part with hpart | ⟨es, hes, hnode⟩
    · exact Value.mem_parts_trans hpart (Value.value_mem_parts he)
    · rw [Value.map.inj hnode] at he
      exact Value.mem_parts_trans hes (Value.value_mem_parts (mem_of_mem_without he))
  | follow hes hinactive htarget =>
    have hoccurs := h.occurs (mem_occurring_map.2 (Or.inl hes))
    exact ⟨List.nodup_cons.2 ⟨hinactive, h.nodup⟩, List.forall_mem_cons.2 ⟨hoccurs, h.known⟩,
      Or.inl (target_mem_parts htarget)⟩
  | beside hes _ =>
    refine ⟨h.nodup, h.known, Or.inr ?_⟩
    rcases h.part with hpart | ⟨es, -, hnode⟩
    · exact ⟨_, hpart, rfl⟩
    · -- what stands beside a reference has none itself
      rw [Value.map.inj hnode, ofFields?_without] at hes
      cases hes

theorem IsInside.of_reaches (h : Reaches document walk p) : IsInside document p := by
  induction h with
  | refl => exact isInside_document document
  | tail _ hcall ih => exact ih.call hcall

/-- There is room for a reference that is not active. -/
theorem IsInside.length_active_lt (h : IsInside document p) {r : Text}
    (hr : r ∈ occurring document) (hinactive : r ∉ p.active) :
    p.active.length < referenceCount document :=
  length_le_referenceCount (List.nodup_cons.2 ⟨hinactive, h.nodup⟩)
    (List.forall_mem_cons.2 ⟨hr, h.known⟩)

/-! ### Getting smaller -/

/-- Whether a visit is closer to an end than another one: it is at a smaller node inside the same
references, or inside one more reference of the document. -/
def Descends (document : Value) (p q : Visit) : Prop :=
  (q.active = p.active ∧ q.node.parts.length < p.node.parts.length) ∨
    ∃ r, q.active = r :: p.active ∧ r ∈ occurring document ∧ r ∉ p.active

theorem exists_mem_of_ofFields? {es : Fields} {reference : Text}
    (h : ofFields? es = some reference) : ∃ e ∈ es, (e.1 == refKey) = true := by
  unfold ofFields? at h
  split at h
  · next hlookup =>
    obtain ⟨own, hmem, hsame⟩ := Entries.mem_of_lookup_eq_some hlookup
    exact ⟨_, hmem, by rwa [BEq.comm]⟩
  · cases h

/-- A visit leads to closer ones only. -/
theorem descends_of_calls (h : IsInside document p) (hcall : Calls document walk p q) :
    Descends document p q := by
  cases hcall with
  | member hx => exact Or.inl ⟨rfl, Value.length_parts_lt_list hx⟩
  | value _ he => exact Or.inl ⟨rfl, Value.length_parts_lt_map he⟩
  | follow hes hinactive _ =>
    exact Or.inr ⟨_, rfl, h.occurs (mem_occurring_map.2 (Or.inl hes)), hinactive⟩
  | beside hes _ =>
    obtain ⟨e, he, hkey⟩ := exists_mem_of_ofFields? hes
    exact Or.inl ⟨rfl, Value.length_parts_without_lt he hkey⟩

/-- What gets smaller from visit to visit: the number of references that are not active, and at the
same number the node. -/
def rank (document : Value) (p : Visit) : Nat × Nat :=
  (referenceCount document - p.active.length, p.node.parts.length)

theorem rank_lt_of_calls (h : IsInside document p) (hcall : Calls document walk p q) :
    Prod.Lex (· < ·) (· < ·) (rank document q) (rank document p) := by
  rw [Prod.lex_def, rank, rank]
  rcases descends_of_calls h hcall with ⟨hactive, hsize⟩ | ⟨r, hactive, hr, hinactive⟩
  · rw [hactive]
    exact Or.inr ⟨rfl, hsize⟩
  · have hroom := h.length_active_lt hr hinactive
    rw [hactive, List.length_cons]
    refine Or.inl ?_
    dsimp only
    omega

/-- There is no endless row of visits. -/
theorem wellFounded_calls (document : Value) (walk : Visit → Except Failure Value) :
    WellFounded fun q p => Reaches document walk p ∧ Calls document walk p q := by
  have hlex := (Prod.lex Nat.lt_wfRel Nat.lt_wfRel).wf
  refine Subrelation.wf ?_ (InvImage.wf (rank document) hlex)
  rintro q p ⟨hreach, hcall⟩
  exact rank_lt_of_calls (IsInside.of_reaches hreach) hcall

end

/-! ### The solution -/

section

variable {walk walk' : Visit → Except Failure Value} {p : Visit} {bound : Nat}

/-- What is reached with one solution is expanded to the same by any function that expands all that
is inside the document level by level. -/
theorem Solves.eq_of_forall (h : Solves document walk)
    (h' : ∀ p, IsInside document p → walk' p = level document walk' p)
    (hp : Reaches document walk p) : walk p = walk' p := by
  induction p using (wellFounded_calls document walk).induction with
  | _ p ih =>
    -- both functions do the same at a visit as soon as they do at those that it leads to
    rw [h p hp, h' p (IsInside.of_reaches hp)]
    exact level_congr fun q hcall => ih q ⟨hp, hcall⟩ (hp.tail hcall)

/-- What an expansion with a bound on the references makes of a visit. -/
def expandAt (document : Value) (bound : Nat) (p : Visit) : Except Failure Value :=
  expandWithin id document (bound - p.active.length) p.active p.node

/-- Inside a document there is always enough depth left to follow a reference that is not active. -/
theorem exists_expandWithin_eq (hbound : referenceCount document ≤ bound)
    (h : IsInside document p) : ∃ F,
    expandWithin id document (bound - p.active.length) p.active = expandNode F ∧
      ∀ r ∈ occurring p.node, F r = resolved document (expandAt document bound) p.active r := by
  cases hdepth : bound - p.active.length with
  | zero =>
    refine ⟨inPlace id document, rfl, fun r hr => ?_⟩
    -- a reference that is not active would need depth, so all that occur here are active
    have hactive : r ∈ p.active := by
      by_contra hinactive
      have hroom := h.length_active_lt (h.occurs hr) hinactive
      omega
    rw [resolved, if_pos (List.contains_iff_mem.2 hactive)]
  | succ depth =>
    refine ⟨_, rfl, fun r _ => ?_⟩
    have hnext : bound - (r :: p.active).length = depth := by
      rw [List.length_cons]
      omega
    simp only [resolved, expandAt, hnext]

/-- The expansion of a document goes level by level. -/
theorem expandAt_eq_level (hbound : referenceCount document ≤ bound) (h : IsInside document p) :
    expandAt document bound p = level document (expandAt document bound) p := by
  obtain ⟨F, hF, hresolved⟩ := exists_expandWithin_eq hbound h
  obtain ⟨active, node⟩ := p
  have hinside : ∀ v, expandAt document bound ⟨active, v⟩ = expandNode F v :=
    fun v => congrFun hF v
  rw [hinside]
  cases node with
  | list xs =>
    rw [level_list, expandNode, expandItems_eq_mapM]
    simp only [hinside]
  | map es =>
    cases hes : ofFields? es with
    | none =>
      rw [level_map_of_none hes, expandNode, hes]
      simp only [hinside, expandFields_eq_mapM]
    | some reference =>
      have hreference := hresolved reference (mem_occurring_map.2 (Or.inl hes))
      rw [level_map_of_some hes, expandNode, hes, ← hreference]
      dsimp only
      refine congrArg (F reference >>= ·) (funext fun w => ?_)
      cases w with
      | map fs =>
        rw [withSiblings, overlaid, hinside, expandNode, ofFields?_without, expandSiblings_eq]
        cases expandFields F (Entries.without refKey es) <;> rfl
      | _ => rfl
  | _ => rfl

theorem solves_expandAt (hbound : referenceCount document ≤ bound) :
    Solves document (expandAt document bound) :=
  fun _ hp => expandAt_eq_level hbound (IsInside.of_reaches hp)

/-- Every solution expands the document to the same. -/
theorem Solves.eq_expand (h : Solves document walk) : walk ⟨[], document⟩ = expand document :=
  h.eq_of_forall (fun _ hp => expandAt_eq_level (Nat.le_refl _) hp) .refl

/-- A bound on the references that is large enough makes no difference. -/
theorem expandWith_eq_expand (hbound : referenceCount document ≤ bound) :
    expandWith id document bound = expand document :=
  (solves_expandAt hbound).eq_expand

end

end NodeForge.Reference
