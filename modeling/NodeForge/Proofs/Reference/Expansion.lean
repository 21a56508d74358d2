import Mathlib.Data.List.Perm.Subperm
import NodeForge.Proofs.Reference.Equations

/-!
# Expansion without circles

`expand` keeps track of the references that it is in, follows none of them twice along a way, and
goes no deeper than there are different references. In a document without circles none of this
shows: it gives what the plain equations say, and gives something as soon as every reference that is
met names a node (`expand_of_not_isCircular`).

A walk over a node uses only what is made of the references that it meets (`expandNode_eq_ok_iff`).
The induction on the depth carries along that no active reference is met (`IsClear`). So the active
references are all different, and when there is no depth left there is no other one to meet.
-/

namespace NodeForge.Reference

variable {document : Value} {F : Text → Except Failure Value}

/-! ### Cases of a walk -/

theorem expandItems_eq_mapM (F : Text → Except Failure Value) (xs : List Value) :
    expandItems F xs = xs.mapM (expandNode F) := by
  induction xs with
  | nil => rfl
  | cons x xs ih =>
    rw [expandItems, List.mapM_cons, ih]

theorem expandFields_eq_mapM (F : Text → Except Failure Value) (es : Fields) :
    expandFields F es = es.mapM fun e => Prod.mk e.1 <$> expandNode F e.2 := by
  induction es with
  | nil => rfl
  | cons e rest ih =>
    obtain ⟨k, v⟩ := e
    rw [expandFields, List.mapM_cons, ih]
    cases expandNode F v <;> rfl

theorem expandFields_eq_ok {es fs : Fields} : expandFields F es = .ok fs ↔
    List.Forall₂ (AtKey fun v w => expandNode F v = .ok w) es fs := by
  rw [expandFields_eq_mapM, Outcome.mapM_eq_ok]
  refine Outcome.forall₂_congr_of_mem fun e _ f => ?_
  rw [Outcome.map_eq_ok]
  constructor
  · rintro ⟨w, hw, rfl⟩
    exact .mk e.1 hw
  · rintro ⟨key, hw⟩
    exact ⟨_, hw, rfl⟩

theorem expandSiblings_eq (F : Text → Except Failure Value) (es : Fields) :
    expandSiblings F es = expandFields F (Entries.without refKey es) := by
  induction es with
  | nil => rfl
  | cons e rest ih =>
    obtain ⟨k, v⟩ := e
    rw [expandSiblings, Entries.without, List.filter_cons]
    by_cases hk : (k == refKey) = true
    · rw [if_pos hk, ih, if_neg (by simp [hk])]
      rfl
    · rw [if_neg hk, if_pos (by simpa using hk), expandFields, ih]
      rfl

theorem expandNode_list_eq_ok {xs : List Value} {w : Value} :
    expandNode F (.list xs) = .ok w ↔
      ∃ ys, List.Forall₂ (fun x y => expandNode F x = .ok y) xs ys ∧ w = .list ys := by
  rw [expandNode, Outcome.map_eq_ok, expandItems_eq_mapM]
  simp only [Outcome.mapM_eq_ok, eq_comm (a := w)]

theorem expandNode_map_eq_ok_of_none {es : Fields} (hnone : ofFields? es = none) {w : Value} :
    expandNode F (.map es) = .ok w ↔
      ∃ fs, List.Forall₂ (AtKey fun v w => expandNode F v = .ok w) es fs ∧ w = .map fs := by
  rw [expandNode, hnone]
  dsimp only
  rw [Outcome.map_eq_ok]
  simp only [expandFields_eq_ok, eq_comm (a := w)]

/-- A mapping with a reference is made from what is made of the reference. -/
theorem expandNode_map_eq_ok_of_some {es : Fields} {reference : Text}
    (hsome : ofFields? es = some reference) {w : Value} :
    expandNode F (.map es) = .ok w ↔
      ∃ u, F reference = .ok u ∧
        ((∃ fs siblings, u = .map fs ∧
            List.Forall₂ (AtKey fun v w => expandNode F v = .ok w) (Entries.without refKey es)
              siblings ∧
            w = .map (Entries.putAll fs siblings)) ∨
          (u.fields? = none ∧ w = u)) := by
  rw [expandNode, hsome]
  dsimp only
  rw [Outcome.bind_eq_ok, expandSiblings_eq]
  refine exists_congr fun u => and_congr_right fun _ => ?_
  cases u with
  | map fs =>
    rw [withSiblings, Outcome.bind_eq_ok]
    simp only [Outcome.pure_eq_ok, expandFields_eq_ok]
    constructor
    · rintro ⟨siblings, hsiblings, rfl⟩
      exact Or.inl ⟨fs, siblings, rfl, hsiblings, rfl⟩
    · rintro (⟨fs', siblings, hfs, hsiblings, rfl⟩ | ⟨hfields, -⟩)
      · cases hfs
        exact ⟨siblings, hsiblings, rfl⟩
      · cases hfields
  | _ => simp [withSiblings, Value.fields?, eq_comm]

/-! ### What a walk uses -/

/-- Whether what is made of references is what they expand to, as far as a value meets them. -/
def Follows (document : Value) (F : Text → Except Failure Value) (v : Value) : Prop :=
  ∀ r, Meets document v r → ∀ w,
    F r = .ok w ↔ ∃ node, target id document r = .ok node ∧ ExpandsTo document node w

/-- What expands to itself expands to nothing else. -/
theorem ok_eq_ok_iff_expandsTo {v w : Value} (hself : ExpandsTo document v v) :
    (.ok v : Except Failure Value) = .ok w ↔ ExpandsTo document v w := by
  rw [Except.ok.injEq]
  constructor
  · rintro rfl
    exact hself
  · exact hself.unique

/-- A walk gives what the equations say, if it makes of the references that it meets what they say.
-/
theorem expandNode_eq_ok_iff {v w : Value} (h : Follows document F v) :
    expandNode F v = .ok w ↔ ExpandsTo document v w := by
  induction v using Value.parts_induction generalizing w with
  | scalar s =>
    rw [expandNode]
    · exact ok_eq_ok_iff_expandsTo (.scalar s)
    all_goals exact nofun
  | pair a b =>
    rw [expandNode]
    · exact ok_eq_ok_iff_expandsTo (.pair a b)
    all_goals exact nofun
  | set members =>
    rw [expandNode]
    · exact ok_eq_ok_iff_expandsTo (.set members)
    all_goals exact nofun
  | again shape n =>
    rw [expandNode]
    exact iff_of_false nofun nofun
  | list xs ih =>
    rw [expandNode_list_eq_ok, expandsTo_list_iff]
    have hmembers : ∀ x ∈ xs, ∀ y, expandNode F x = .ok y ↔ ExpandsTo document x y :=
      fun x hx y => ih x hx fun r hr => h r (.member hx hr)
    simp only [Outcome.forall₂_congr_of_mem hmembers]
  | map es ih =>
    cases hes : ofFields? es with
    | none =>
      rw [expandNode_map_eq_ok_of_none hes, expandsTo_map_iff_of_none hes]
      have hentries : ∀ e ∈ es, ∀ f, AtKey (fun v w => expandNode F v = .ok w) e f ↔
          AtKey (ExpandsTo document) e f :=
        fun e he f => atKey_congr fun w => ih e he fun r hr => h r (.value hes he hr)
      simp only [Outcome.forall₂_congr_of_mem hentries]
    | some reference =>
      rw [expandNode_map_eq_ok_of_some hes, expandsTo_map_iff_of_some hes]
      have hreference := h reference (.here hes)
      -- the keys beside the reference are gone into only where it stands for a mapping
      have hsiblings : ∀ fs, F reference = .ok (.map fs) → ∀ siblings,
          List.Forall₂ (AtKey fun v w => expandNode F v = .ok w) (Entries.without refKey es)
              siblings ↔
            List.Forall₂ (AtKey (ExpandsTo document)) (Entries.without refKey es) siblings := by
        intro fs hfs siblings
        obtain ⟨node, htarget, hnode⟩ := (hreference _).1 hfs
        refine Outcome.forall₂_congr_of_mem fun e he f => atKey_congr fun w => ?_
        exact ih e (mem_of_mem_without he) fun r hr => h r (.beside hes htarget hnode he hr)
      constructor
      · rintro ⟨u, hu, hcases⟩
        obtain ⟨node, htarget, hnode⟩ := (hreference u).1 hu
        refine ⟨node, htarget, u, hnode, hcases.imp_left ?_⟩
        rintro ⟨fs, siblings, rfl, hrow, hw⟩
        exact ⟨fs, siblings, rfl, (hsiblings fs hu siblings).1 hrow, hw⟩
      · rintro ⟨node, htarget, u, hnode, hcases⟩
        have hu := (hreference u).2 ⟨node, htarget, hnode⟩
        refine ⟨u, hu, hcases.imp_left ?_⟩
        rintro ⟨fs, siblings, rfl, hrow, hw⟩
        exact ⟨fs, siblings, rfl, (hsiblings fs hu siblings).2 hrow, hw⟩

theorem exists_expandFields {es : Fields} (h : ∀ e ∈ es, ∃ w, expandNode F e.2 = .ok w) :
    ∃ fs, expandFields F es = .ok fs := by
  rw [expandFields_eq_mapM, Outcome.exists_mapM_eq_ok]
  intro e he
  obtain ⟨w, hw⟩ := h e he
  exact ⟨(e.1, w), Outcome.map_eq_ok.2 ⟨w, hw, rfl⟩⟩

/-- A walk succeeds if something is made of every reference that it meets. -/
theorem exists_expandNode {v : Value} (h : Follows document F v)
    (hended : ∀ shape n, Value.again shape n ∉ v.parts)
    (hok : ∀ r, Meets document v r → ∃ w, F r = .ok w) : ∃ w, expandNode F v = .ok w := by
  induction v using Value.parts_induction with
  | again shape n => exact absurd (Value.self_mem_parts _) (hended shape n)
  | list xs ih =>
    have hmembers : ∃ ys, xs.mapM (expandNode F) = .ok ys := by
      refine Outcome.exists_mapM_eq_ok.2 fun x hx => ?_
      refine ih x hx (fun r hr => h r (.member hx hr)) (fun shape n hagain => ?_)
        fun r hr => hok r (.member hx hr)
      exact hended shape n (Value.mem_parts_trans (Value.member_mem_parts hx) hagain)
    obtain ⟨ys, hys⟩ := hmembers
    exact ⟨.list ys, expandNode_list_eq_ok.2 ⟨ys, Outcome.mapM_eq_ok.1 hys, rfl⟩⟩
  | map es ih =>
    have hended' : ∀ e ∈ es, ∀ shape n, Value.again shape n ∉ e.2.parts :=
      fun e he shape n hagain =>
        hended shape n (Value.mem_parts_trans (Value.value_mem_parts he) hagain)
    cases hes : ofFields? es with
    | none =>
      have hentries : ∀ e ∈ es, ∃ w, expandNode F e.2 = .ok w := fun e he =>
        ih e he (fun r hr => h r (.value hes he hr)) (hended' e he)
          fun r hr => hok r (.value hes he hr)
      obtain ⟨fs, hfs⟩ := exists_expandFields hentries
      exact ⟨.map fs, (expandNode_map_eq_ok_of_none hes).2 ⟨fs, expandFields_eq_ok.1 hfs, rfl⟩⟩
    | some reference =>
      obtain ⟨u, hu⟩ := hok reference (.here hes)
      cases hfields : u.fields? with
      | none => exact ⟨u, (expandNode_map_eq_ok_of_some hes).2 ⟨u, hu, Or.inr ⟨hfields, rfl⟩⟩⟩
      | some fs =>
        rw [Value.fields?_eq_some] at hfields
        rw [hfields] at hu
        obtain ⟨node, htarget, hnode⟩ := (h reference (.here hes) _).1 hu
        have hentries : ∀ e ∈ Entries.without refKey es, ∃ w, expandNode F e.2 = .ok w :=
          fun e he => ih e (mem_of_mem_without he)
            (fun r hr => h r (.beside hes htarget hnode he hr))
            (hended' e (mem_of_mem_without he)) fun r hr => hok r (.beside hes htarget hnode he hr)
        obtain ⟨siblings, hsiblings⟩ := exists_expandFields hentries
        exact ⟨_, (expandNode_map_eq_ok_of_some hes).2 ⟨_, hu, Or.inl
          ⟨fs, siblings, rfl, expandFields_eq_ok.1 hsiblings, rfl⟩⟩⟩
  | _ =>
    rw [expandNode]
    · exact ⟨_, rfl⟩
    all_goals exact nofun

/-! ### The depth of references -/

/-- How many different references a document has. -/
def referenceCount (document : Value) : Nat := (Entries.distinct (occurring document)).length

/-- Different references of a document are no more than there are. -/
theorem length_le_referenceCount {active : List Text} (hnodup : active.Nodup)
    (hknown : ∀ r ∈ active, r ∈ occurring document) : active.length ≤ referenceCount document :=
  (hnodup.subperm fun r hr => Entries.mem_distinct.2 (hknown r hr)).length_le

/-- Whether the way to a part of a document is clear: no active reference is met from there on, and
the depth that is left is enough for all other references of the document. -/
structure IsClear (document : Value) (depth : Nat) (active : List Text) (v : Value) : Prop where
  part : v ∈ document.parts
  met : ∀ r, Meets document v r → Meets document document r
  inactive : ∀ r, Meets document v r → r ∉ active
  nodup : active.Nodup
  known : ∀ r ∈ active, r ∈ occurring document
  enough : (Entries.distinct (occurring document)).length ≤ depth + active.length

namespace IsClear

variable {depth : Nat} {active : List Text} {v : Value} {r : Text}

theorem nodup_cons (h : IsClear document depth active v) (hr : Meets document v r) :
    (r :: active).Nodup :=
  List.nodup_cons.2 ⟨h.inactive r hr, h.nodup⟩

theorem mem_occurring_cons (h : IsClear document depth active v) (hr : Meets document v r) :
    ∀ s ∈ r :: active, s ∈ occurring document :=
  List.forall_mem_cons.2 ⟨mem_occurring_of_meets hr h.part, h.known⟩

/-- Without depth no reference is met: all there are would be active. -/
theorem not_meets (h : IsClear document 0 active v) : ¬ Meets document v r := by
  intro hr
  have hlength := length_le_referenceCount (h.nodup_cons hr) (h.mem_occurring_cons hr)
  have henough : referenceCount document ≤ 0 + active.length := h.enough
  rw [List.length_cons] at hlength
  omega

/-- The way stays clear where a reference is followed. -/
theorem follow (hcircular : ¬ IsCircular document) (h : IsClear document (depth + 1) active v)
    (hr : Meets document v r) {node : Value} (htarget : target id document r = .ok node) :
    IsClear document depth (r :: active) node where
  part := target_mem_parts htarget
  met s hs := h.met s (hr.trans htarget hs)
  inactive s hs := by
    rw [List.mem_cons, not_or]
    refine ⟨fun heq => ?_, h.inactive s (hr.trans htarget hs)⟩
    rw [heq] at hs
    exact hcircular ⟨r, node, h.met r hr, htarget, hs⟩
  nodup := h.nodup_cons hr
  known := h.mem_occurring_cons hr
  enough := by
    have henough := h.enough
    rw [List.length_cons]
    omega

end IsClear

variable {depth : Nat} {active : List Text} {v w : Value}

/-- On a clear way a reference that is met is not active, so it is followed. -/
theorem expandWithin_succ_eq (h : IsClear document (depth + 1) active v) : ∃ F,
    expandWithin id document (depth + 1) active = expandNode F ∧
      ∀ r, Meets document v r → F r = (do
        let node ← target id document r
        expandWithin id document depth (r :: active) node) := by
  refine ⟨_, rfl, fun r hr => ?_⟩
  have hinactive : active.contains r ≠ true :=
    fun hactive => h.inactive r hr (List.contains_iff_mem.1 hactive)
  exact if_neg hinactive

/-- **Expansion on a clear way.** Neither the active references nor the depth change anything. -/
theorem expandWithin_eq_ok_iff (hcircular : ¬ IsCircular document)
    (h : IsClear document depth active v) :
    expandWithin id document depth active v = .ok w ↔ ExpandsTo document v w := by
  induction depth generalizing active v w with
  | zero =>
    rw [expandWithin]
    exact expandNode_eq_ok_iff fun r hr => absurd hr h.not_meets
  | succ depth ih =>
    obtain ⟨F, hF, hfollowed⟩ := expandWithin_succ_eq h
    rw [hF]
    refine expandNode_eq_ok_iff fun r hr u => ?_
    rw [hfollowed r hr, Outcome.bind_eq_ok]
    exact exists_congr fun node => and_congr_right fun htarget => ih (h.follow hcircular hr htarget)

/-- On a clear way expansion succeeds if every reference that is met names a node. -/
theorem exists_expandWithin (hcircular : ¬ IsCircular document) (hplain : IsPlain document)
    (h : IsClear document depth active v)
    (htargets : ∀ r, Meets document v r → ∃ node, target id document r = .ok node) :
    ∃ w, expandWithin id document depth active v = .ok w := by
  have hended : ∀ {v}, v ∈ document.parts → ∀ shape n, Value.again shape n ∉ v.parts :=
    fun hv shape n hagain => hplain.ended shape n (Value.mem_parts_trans hv hagain)
  induction depth generalizing active v with
  | zero =>
    rw [expandWithin]
    exact exists_expandNode (fun r hr => absurd hr h.not_meets) (hended h.part)
      fun r hr => absurd hr h.not_meets
  | succ depth ih =>
    obtain ⟨F, hF, hfollowed⟩ := expandWithin_succ_eq h
    rw [hF]
    have hfollows : Follows document F v := by
      intro r hr u
      rw [hfollowed r hr, Outcome.bind_eq_ok]
      exact exists_congr fun node => and_congr_right fun htarget =>
        expandWithin_eq_ok_iff hcircular (h.follow hcircular hr htarget)
    refine exists_expandNode hfollows (hended h.part) fun r hr => ?_
    obtain ⟨node, htarget⟩ := htargets r hr
    obtain ⟨w, hw⟩ := ih (h.follow hcircular hr htarget)
      fun s hs => htargets s (hr.trans htarget hs)
    exact ⟨w, (hfollowed r hr).trans (Outcome.bind_eq_ok.2 ⟨node, htarget, hw⟩)⟩

/-! ### Expanding once more -/

/-- A walk over a value without references leaves it as it is. -/
theorem expandNode_eq_self (hreference : ∀ es, Value.map es ∈ v.parts → refKey ∉ Entries.keys es)
    (hended : ∀ shape n, Value.again shape n ∉ v.parts) : expandNode F v = .ok v := by
  induction v using Value.parts_induction with
  | again shape n => exact absurd (Value.self_mem_parts _) (hended shape n)
  | list xs ih =>
    refine expandNode_list_eq_ok.2 ⟨xs, List.forall₂_same.2 fun x hx => ?_, rfl⟩
    have hpart := Value.member_mem_parts hx
    exact ih x hx (fun es hes => hreference es (Value.mem_parts_trans hpart hes))
      fun shape n hagain => hended shape n (Value.mem_parts_trans hpart hagain)
  | map es ih =>
    have hnone := ofFields?_eq_none (hreference es (Value.self_mem_parts _))
    refine (expandNode_map_eq_ok_of_none hnone).2 ⟨es, List.forall₂_same.2 fun e he => ?_, rfl⟩
    have hpart := Value.value_mem_parts he
    exact .mk e.1 (ih e he (fun es hes => hreference es (Value.mem_parts_trans hpart hes))
      fun shape n hagain => hended shape n (Value.mem_parts_trans hpart hagain))
  | _ =>
    rw [expandNode]
    all_goals exact nofun

theorem expand_eq_self (h : IsExpanded document v) : expand v = .ok v := by
  unfold expand expandWith
  cases (Entries.distinct (occurring v)).length with
  | zero => exact expandNode_eq_self h.noReference h.ended
  | succ depth => exact expandNode_eq_self h.noReference h.ended

/-! ### Whole documents -/

variable {bound : Nat}

/-- The way to a document is clear before any reference is followed. -/
theorem isClear_document (h : (Entries.distinct (occurring document)).length ≤ bound) :
    IsClear document bound [] document where
  part := Value.self_mem_parts document
  met _ hr := hr
  inactive _ _ := List.not_mem_nil
  nodup := List.nodup_nil
  known _ hr := nomatch hr
  enough := h

/-- With a bound on the references that is large enough, expansion gives what the equations say,
whatever the bound is. -/
theorem expandWith_eq_ok_iff (hcircular : ¬ IsCircular document)
    (h : (Entries.distinct (occurring document)).length ≤ bound) :
    expandWith id document bound = .ok w ↔ ExpandsTo document document w :=
  expandWithin_eq_ok_iff hcircular (isClear_document h)

/-- **Expansion without circles.** A plain document without circles can be expanded exactly if every
reference that is met names a node. Its expansion is what the equations say. There is no reference
left in it, except in pairs of the document, and expanding it once more changes nothing. -/
theorem expand_of_not_isCircular (hplain : IsPlain document) (hcircular : ¬ IsCircular document) :
    ((∃ v, expand document = .ok v) ↔
      ∀ r, Meets document document r → ∃ node, target id document r = .ok node) ∧
    ∀ v, (expand document = .ok v ↔ ExpandsTo document document v) ∧
      (expand document = .ok v → IsExpanded document v ∧ expand v = .ok v) := by
  have hiff : ∀ v, expand document = .ok v ↔ ExpandsTo document document v :=
    fun v => expandWith_eq_ok_iff hcircular (Nat.le_refl _)
  refine ⟨⟨?_, ?_⟩, fun v => ⟨hiff v, fun h => ?_⟩⟩
  · rintro ⟨v, h⟩ r hr
    exact exists_target_of_expandsTo ((hiff v).1 h) hr
  · intro htargets
    exact exists_expandWithin hcircular hplain (isClear_document (Nat.le_refl _)) htargets
  · have hexpanded := isExpanded_of_expandsTo hplain ((hiff v).1 h) (Value.self_mem_parts document)
    exact ⟨hexpanded, expand_eq_self hexpanded⟩

/-- A document where a reference stands beside another one and names a node with a third one. -/
def chainedDocument : Value :=
  .record [
    ("first", .record [("$ref", .str "#/second"), ("beside", .record [("$ref", .str "#/third")])]),
    ("second", .record [("$ref", .str "#/third"), ("own", .int 2)]),
    ("third", .record [("members", .list [.int 1])])]

theorem expand_chainedDocument :
    IsPlain chainedDocument ∧ ¬ IsCircular chainedDocument ∧
      ∃ v, expand chainedDocument = .ok v ∧ ExpandsTo chainedDocument chainedDocument v ∧
        (∀ r, Meets chainedDocument chainedDocument r →
          ∃ node, target id chainedDocument r = .ok node) ∧
        IsExpanded chainedDocument v ∧ expand v = .ok v := by
  have hplain : IsPlain chainedDocument := by decide +kernel
  have hrank : ∀ r ∈ occurring chainedDocument, ∀ node ∈ (target id chainedDocument r).toOption,
      ∀ s ∈ occurring node,
        (if s = "#/second" then 1 else 0) < (if r = "#/second" then 1 else 0) := by
    decide +kernel
  have hcircular : ¬ IsCircular chainedDocument := by
    refine not_isCircular_of_rank (fun r => if r = "#/second" then 1 else 0) ?_
    intro r hr node htarget s hs
    refine hrank r hr node ?_ s hs
    rw [htarget]
    rfl
  obtain ⟨v, hv⟩ := Outcome.isOk_iff.1 (by decide +kernel : (expand chainedDocument).isOk = true)
  have hspec := expand_of_not_isCircular hplain hcircular
  obtain ⟨hexpanded, hagain⟩ := (hspec.2 v).2 hv
  exact ⟨hplain, hcircular, v, hv, (hspec.2 v).1.1 hv, hspec.1.1 ⟨v, hv⟩, hexpanded, hagain⟩

/-- A document with a reference in a pair. -/
def pairedDocument : Value :=
  .record [("kind", .str "pet"),
    ("order", .list [.pair (.str "first") (.record [("$ref", .str "#/kind")])])]

/-- A document with a list that holds itself. -/
def ownDocument : Value := .record [("own", .list [.again .list 0])]

/-- A reference in a pair is left, though it names a node, and a container that holds itself keeps a
document from being expanded, though no reference is met. -/
theorem expand_pairs_and_owns :
    (IsPlain pairedDocument ∧ ¬ IsCircular pairedDocument ∧
      target id pairedDocument "#/kind" = .ok (.str "pet") ∧
      expand pairedDocument = .ok pairedDocument ∧
      Value.pair (.str "first") (.record [("$ref", .str "#/kind")]) ∈ pairedDocument.parts) ∧
    (∀ r, ¬ Meets ownDocument ownDocument r) ∧
      expand ownDocument = .error (.fault .endless) := by
  have hpaired : occurring pairedDocument = [] := rfl
  have hown : occurring ownDocument = [] := rfl
  refine ⟨⟨by decide +kernel, ?_, rfl, rfl, ?_⟩, fun r hr => ?_, rfl⟩
  · rintro ⟨r, node, hr, -⟩
    have hmem := mem_occurring_of_meets hr (Value.self_mem_parts _)
    rw [hpaired] at hmem
    cases hmem
  · exact Value.mem_parts_trans (Value.value_mem_parts (List.mem_cons_of_mem _ List.mem_cons_self))
      (Value.member_mem_parts List.mem_cons_self)
  · have hmem := mem_occurring_of_meets hr (Value.self_mem_parts _)
    rw [hown] at hmem
    cases hmem

end NodeForge.Reference
