import NodeForge.Proofs.Reference.Pointer

/-!
# The equations of expansion

What a reference stands for can be said without keeping track of references: the node that it names,
expanded in turn, with the expanded keys beside it written over. `ExpandsTo` are these equations,
and a value has one expansion at most (`ExpandsTo.unique`), which has no references left except in
pairs, as these are not gone into (`isExpanded_of_expandsTo`).

`Meets` says which references come up on the way. A value with an expansion meets none without a
node (`exists_target_of_expandsTo`). A document is circular if a reference comes up again inside its
own expansion, and it is not if the references in a named node come before the one that names it
(`not_isCircular_of_rank`).
-/

namespace NodeForge.Reference

/-! ### Plain expansion -/

/-- Whether two entries have one key and related values. -/
inductive AtKey (R : Value → Value → Prop) : Scalar × Value → Scalar × Value → Prop
  | mk (key : Scalar) {v w : Value} : R v w → AtKey R (key, v) (key, w)

/-- Whether a value expands to another one, with references into a given document. -/
inductive ExpandsTo (document : Value) : Value → Value → Prop
  | scalar (s : Scalar) : ExpandsTo document (.scalar s) (.scalar s)
  | pair (a b : Value) : ExpandsTo document (.pair a b) (.pair a b)
  | set (members : List Scalar) : ExpandsTo document (.set members) (.set members)
  | list {xs ys : List Value} : List.Forall₂ (ExpandsTo document) xs ys →
      ExpandsTo document (.list xs) (.list ys)
  | map {es fs : Fields} : ofFields? es = none →
      List.Forall₂ (AtKey (ExpandsTo document)) es fs → ExpandsTo document (.map es) (.map fs)
  | overlaid {es fs siblings : Fields} {reference : Text} {node : Value} :
      ofFields? es = some reference → target id document reference = .ok node →
      ExpandsTo document node (.map fs) →
      List.Forall₂ (AtKey (ExpandsTo document)) (Entries.without refKey es) siblings →
      ExpandsTo document (.map es) (.map (Entries.putAll fs siblings))
  | instead {es : Fields} {reference : Text} {node w : Value} :
      ofFields? es = some reference → target id document reference = .ok node →
      ExpandsTo document node w → w.fields? = none → ExpandsTo document (.map es) w

variable {document : Value}

theorem atKey_congr {R S : Value → Value → Prop} {e f : Scalar × Value}
    (h : ∀ w, R e.2 w ↔ S e.2 w) : AtKey R e f ↔ AtKey S e f := by
  constructor
  · rintro ⟨key, hR⟩
    exact .mk key ((h _).1 hR)
  · rintro ⟨key, hS⟩
    exact .mk key ((h _).2 hS)

/-- Induction on an expansion, where the members of lists and mappings have theirs. -/
@[elab_as_elim]
theorem ExpandsTo.induction_on {P : ∀ v w, ExpandsTo document v w → Prop} {v w : Value}
    (h : ExpandsTo document v w) (scalar : ∀ s, P (.scalar s) (.scalar s) (.scalar s))
    (pair : ∀ a b, P (.pair a b) (.pair a b) (.pair a b))
    (set : ∀ members, P (.set members) (.set members) (.set members))
    (list : ∀ xs ys h, List.Forall₂ (fun x y => ∃ hxy, P x y hxy) xs ys →
      P (.list xs) (.list ys) h)
    (map : ∀ (es fs : Fields) h, ofFields? es = none →
      List.Forall₂ (AtKey fun x y => ∃ hxy, P x y hxy) es fs → P (.map es) (.map fs) h)
    (overlaid : ∀ (es fs siblings : Fields) (reference : Text) (node : Value) h hnode,
      ofFields? es = some reference → target id document reference = .ok node →
      P node (.map fs) hnode →
      List.Forall₂ (AtKey fun x y => ∃ hxy, P x y hxy) (Entries.without refKey es) siblings →
      P (.map es) (.map (Entries.putAll fs siblings)) h)
    (instead : ∀ (es : Fields) (reference : Text) (node w : Value) h hnode,
      ofFields? es = some reference → target id document reference = .ok node →
      P node w hnode → w.fields? = none → P (.map es) w h) : P v w h := by
  refine @ExpandsTo.rec document P
    (fun xs ys _ => List.Forall₂ (fun x y => ∃ hxy, P x y hxy) xs ys)
    (fun es fs _ => List.Forall₂ (AtKey fun x y => ∃ hxy, P x y hxy) es fs)
    (fun e f _ => AtKey (fun x y => ∃ hxy, P x y hxy) e f)
    scalar pair set ?_ ?_ ?_ ?_ ?_ ?_ ?_ ?_ ?_ v w h
  · exact fun _ hmembers => list _ _ _ hmembers
  · exact fun hnone _ hentries => map _ _ _ hnone hentries
  · exact fun hsome htarget hnode _ hP hsiblings =>
      overlaid _ _ _ _ _ _ hnode hsome htarget hP hsiblings
  · exact fun hsome htarget hnode hfields hP =>
      instead _ _ _ _ _ hnode hsome htarget hP hfields
  · exact .nil
  · exact fun hx _ hP hrest => .cons ⟨hx, hP⟩ hrest
  · exact .nil
  · exact fun _ _ hentry hrest => .cons hentry hrest
  · exact fun key _ _ hv hP => .mk key ⟨hv, hP⟩

/-! ### Cases of an expansion -/

theorem expandsTo_list_iff {xs : List Value} {w : Value} :
    ExpandsTo document (.list xs) w ↔
      ∃ ys, List.Forall₂ (ExpandsTo document) xs ys ∧ w = .list ys := by
  constructor
  · intro h
    cases h with
    | list hmembers => exact ⟨_, hmembers, rfl⟩
  · rintro ⟨ys, hmembers, rfl⟩
    exact .list hmembers

theorem expandsTo_map_iff_of_none {es : Fields} (hnone : ofFields? es = none) {w : Value} :
    ExpandsTo document (.map es) w ↔
      ∃ fs, List.Forall₂ (AtKey (ExpandsTo document)) es fs ∧ w = .map fs := by
  constructor
  · intro h
    cases h with
    | map _ hentries => exact ⟨_, hentries, rfl⟩
    | overlaid hsome | instead hsome =>
      rw [hnone] at hsome
      cases hsome
  · rintro ⟨fs, hentries, rfl⟩
    exact .map hnone hentries

/-- A mapping with a reference expands by way of the node that it names. -/
theorem expandsTo_map_iff_of_some {es : Fields} {reference : Text}
    (hsome : ofFields? es = some reference) {w : Value} :
    ExpandsTo document (.map es) w ↔
      ∃ node, target id document reference = .ok node ∧ ∃ u, ExpandsTo document node u ∧
        ((∃ fs siblings, u = .map fs ∧
            List.Forall₂ (AtKey (ExpandsTo document)) (Entries.without refKey es) siblings ∧
            w = .map (Entries.putAll fs siblings)) ∨
          (u.fields? = none ∧ w = u)) := by
  constructor
  · intro h
    cases h with
    | map hnone =>
      rw [hsome] at hnone
      cases hnone
    | overlaid hsome' htarget hnode hsiblings =>
      rw [hsome, Option.some.injEq] at hsome'
      rw [hsome']
      exact ⟨_, htarget, _, hnode, Or.inl ⟨_, _, rfl, hsiblings, rfl⟩⟩
    | instead hsome' htarget hnode hfields =>
      rw [hsome, Option.some.injEq] at hsome'
      rw [hsome']
      exact ⟨_, htarget, _, hnode, Or.inr ⟨hfields, rfl⟩⟩
  · rintro ⟨node, htarget, u, hnode, ⟨fs, siblings, rfl, hsiblings, rfl⟩ | ⟨hfields, rfl⟩⟩
    · exact .overlaid hsome htarget hnode hsiblings
    · exact .instead hsome htarget hnode hfields

/-- The equations have one solution at most. -/
theorem ExpandsTo.unique {v w w' : Value} (h : ExpandsTo document v w)
    (h' : ExpandsTo document v w') : w = w' := by
  have hentry : ∀ e f g : Scalar × Value,
      AtKey (fun x y => ∃ _ : ExpandsTo document x y, ∀ {z}, ExpandsTo document x z → y = z) e f →
      AtKey (ExpandsTo document) e g → f = g := by
    rintro - - - ⟨key, -, hunique⟩ ⟨-, hg⟩
    rw [hunique hg]
  induction h using ExpandsTo.induction_on generalizing w' with
  | scalar | pair | set =>
    cases h'
    rfl
  | list xs ys _ hmembers =>
    obtain ⟨zs, hzs, rfl⟩ := expandsTo_list_iff.1 h'
    rw [Outcome.eq_of_forall₂ (fun _ _ _ hy hz => hy.2 hz) hmembers hzs]
  | map es fs _ hnone hentries =>
    obtain ⟨gs, hgs, rfl⟩ := (expandsTo_map_iff_of_none hnone).1 h'
    rw [Outcome.eq_of_forall₂ hentry hentries hgs]
  | overlaid es fs siblings reference node _ _ hsome htarget ih hsiblings =>
    obtain ⟨node', htarget', u, hu, hcases⟩ := (expandsTo_map_iff_of_some hsome).1 h'
    rw [htarget, Except.ok.injEq] at htarget'
    rw [← htarget'] at hu
    have hmap := ih hu
    rcases hcases with ⟨fs', siblings', rfl, hsiblings', rfl⟩ | ⟨hfields, -⟩
    · rw [Value.map.injEq] at hmap
      rw [hmap, Outcome.eq_of_forall₂ hentry hsiblings hsiblings']
    · rw [← hmap] at hfields
      cases hfields
  | instead es reference node w _ _ hsome htarget ih hfields =>
    obtain ⟨node', htarget', u, hu, hcases⟩ := (expandsTo_map_iff_of_some hsome).1 h'
    rw [htarget, Except.ok.injEq] at htarget'
    rw [← htarget'] at hu
    have hsame := ih hu
    rcases hcases with ⟨fs', siblings', rfl, -, -⟩ | ⟨-, rfl⟩
    · rw [hsame] at hfields
      cases hfields
    · exact hsame

/-! ### Expanded values -/

/-- Whether a document is plain: the key of a reference always holds a text, and no container holds
itself. -/
structure IsPlain (document : Value) : Prop where
  texts : ∀ es, Value.map es ∈ document.parts → ∀ e ∈ es, e.1 = refKey → ∃ s, e.2 = .str s
  ended : ∀ shape n, Value.again shape n ∉ document.parts

/-- Whether a value is the mark of a container around it. -/
def isMark : Value → Bool
  | .again _ _ => true
  | _ => false

instance (document : Value) : Decidable (IsPlain document) :=
  decidable_of_iff
    (∀ v ∈ document.parts, isMark v = false ∧
      ∀ es ∈ v.fields?, ∀ e ∈ es, (e.1 == refKey) = true → e.2.text?.isSome = true)
    (by
      constructor
      · intro h
        refine ⟨fun es hes e he hkey => ?_, fun shape n hagain => ?_⟩
        · have htext := (h _ hes).2 es rfl e he (Scalar.beq_str_iff.2 hkey)
          exact Value.exists_str_iff.2 htext
        · exact absurd (h _ hagain).1 (by simp [isMark])
      · intro h v hv
        refine ⟨?_, fun es hes e he hkey => ?_⟩
        · cases v with
          | again shape n => exact absurd hv (h.ended shape n)
          | _ => rfl
        · rw [Value.fields?_eq_some.1 hes] at hv
          exact Value.exists_str_iff.1 (h.texts es hv e he (Scalar.beq_str_iff.1 hkey)))

/-- Whether a value is expanded: it has no references, except in pairs of the document. -/
structure IsExpanded (document w : Value) : Prop where
  noReference : ∀ es, Value.map es ∈ w.parts → refKey ∉ Entries.keys es
  ended : ∀ shape n, Value.again shape n ∉ w.parts
  pairs : ∀ a b, Value.pair a b ∈ w.parts → Value.pair a b ∈ document.parts

theorem IsExpanded.of_mem_parts {w u : Value} (h : IsExpanded document w) (hu : u ∈ w.parts) :
    IsExpanded document u where
  noReference es hes := h.noReference es (Value.mem_parts_trans hu hes)
  ended shape n hagain := h.ended shape n (Value.mem_parts_trans hu hagain)
  pairs a b hpair := h.pairs a b (Value.mem_parts_trans hu hpair)

/-- A list or mapping is expanded if its members are and it does not have the key of a reference. -/
theorem isExpanded_of_members {w : Value} {members : List Value}
    (hparts : ∀ u ∈ w.parts, u = w ∨ ∃ v ∈ members, u ∈ v.parts)
    (hshape : (∃ ys, w = .list ys) ∨ ∃ fs, w = .map fs ∧ refKey ∉ Entries.keys fs)
    (h : ∀ v ∈ members, IsExpanded document v) : IsExpanded document w := by
  refine ⟨fun es hes => ?_, fun shape n hagain => ?_, fun a b hpair => ?_⟩
  · rcases hparts _ hes with rfl | ⟨v, hv, hes⟩
    · obtain ⟨ys, heq⟩ | ⟨fs, heq, hkeys⟩ := hshape
      · cases heq
      · cases heq
        exact hkeys
    · exact (h v hv).noReference es hes
  · rcases hparts _ hagain with rfl | ⟨v, hv, hagain⟩
    · obtain ⟨ys, heq⟩ | ⟨fs, heq, -⟩ := hshape <;> cases heq
    · exact (h v hv).ended shape n hagain
  · rcases hparts _ hpair with rfl | ⟨v, hv, hpair⟩
    · obtain ⟨ys, heq⟩ | ⟨fs, heq, -⟩ := hshape <;> cases heq
    · exact (h v hv).pairs a b hpair

theorem isExpanded_list {ys : List Value} (h : ∀ y ∈ ys, IsExpanded document y) :
    IsExpanded document (.list ys) :=
  isExpanded_of_members (fun _ hu => Value.mem_parts_list.1 hu) (Or.inl ⟨ys, rfl⟩) h

theorem isExpanded_map {fs : Fields} (hkeys : refKey ∉ Entries.keys fs)
    (h : ∀ f ∈ fs, IsExpanded document f.2) : IsExpanded document (.map fs) := by
  have hparts : ∀ u ∈ (Value.map fs).parts, u = .map fs ∨ ∃ v ∈ fs.map Prod.snd, u ∈ v.parts := by
    intro u hu
    refine (Value.mem_parts_map.1 hu).imp_right ?_
    rintro ⟨f, hf, hu⟩
    exact ⟨f.2, List.mem_map_of_mem hf, hu⟩
  refine isExpanded_of_members hparts (Or.inr ⟨fs, rfl, hkeys⟩) fun v hv => ?_
  obtain ⟨f, hf, rfl⟩ := List.mem_map.1 hv
  exact h f hf

theorem keys_eq_of_atKey {R : Value → Value → Prop} {es fs : Fields}
    (h : List.Forall₂ (AtKey R) es fs) : Entries.keys es = Entries.keys fs := by
  refine Outcome.map_eq_map_of_forall₂ (fun e f he => ?_) h
  obtain ⟨key, -⟩ := he
  rfl

/-- A mapping of a plain document that is no reference does not have the key of one. -/
theorem not_mem_keys_of_ofFields? (hplain : IsPlain document) {es : Fields}
    (hes : Value.map es ∈ document.parts) (hnone : ofFields? es = none) :
    refKey ∉ Entries.keys es := by
  intro hkey
  obtain ⟨e, he, hekey⟩ := List.mem_map.1 hkey
  cases hlookup : es.lookup refKey with
  | none =>
    have hne := List.lookup_eq_none_iff.1 hlookup e he
    rw [hekey, bne, BEq.refl] at hne
    cases hne
  | some v =>
    obtain ⟨own, hmem, hown⟩ := Entries.mem_of_lookup_eq_some hlookup
    obtain ⟨s, hs⟩ := hplain.texts es hes (own, v) hmem (Scalar.str_beq_iff.1 hown)
    change v = .str s at hs
    unfold ofFields? at hnone
    rw [hlookup, hs] at hnone
    cases hnone

theorem not_mem_keys_without (es : Fields) : refKey ∉ Entries.keys (Entries.without refKey es) := by
  intro hkey
  obtain ⟨e, he, hekey⟩ := List.mem_map.1 hkey
  have hne := (List.mem_filter.1 he).2
  rw [hekey, BEq.refl] at hne
  cases hne

/-- A mapping without the key of a reference is none. -/
theorem ofFields?_eq_none {es : Fields} (h : refKey ∉ Entries.keys es) : ofFields? es = none := by
  have hlookup : es.lookup refKey = none := by
    rw [List.lookup_eq_none_iff]
    intro e he
    rw [bne, Bool.not_eq_true', ← Bool.not_eq_true]
    intro hsame
    have hkey : e.1 = refKey := Scalar.str_beq_iff.1 hsame
    exact h (hkey ▸ List.mem_map_of_mem he)
  rw [ofFields?, hlookup]

theorem ofFields?_without (es : Fields) : ofFields? (Entries.without refKey es) = none :=
  ofFields?_eq_none (not_mem_keys_without es)

/-- Of a plain document every part expands to an expanded value. -/
theorem isExpanded_of_expandsTo (hplain : IsPlain document) {v w : Value}
    (h : ExpandsTo document v w) (hv : v ∈ document.parts) : IsExpanded document w := by
  -- the entries of an expanded row are expanded, if those of the row are parts of the document
  have hentries : ∀ {es fs : Fields}, (∀ e ∈ es, e.2 ∈ document.parts) →
      List.Forall₂ (AtKey fun x y => ∃ _ : ExpandsTo document x y,
        (x ∈ document.parts → IsExpanded document y)) es fs →
      ∀ f ∈ fs, IsExpanded document f.2 := by
    intro es fs hparts hrow f hf
    obtain ⟨e, he, hentry⟩ := Outcome.exists_left_of_mem hrow hf
    have hpart := hparts e he
    obtain ⟨key, -, hexpanded⟩ := hentry
    exact hexpanded hpart
  have hmember : ∀ {es : Fields} {e : Scalar × Value}, Value.map es ∈ document.parts → e ∈ es →
      e.2 ∈ document.parts := by
    intro es e hes he
    exact Value.mem_parts_trans hes (Value.value_mem_parts he)
  induction h using ExpandsTo.induction_on with
  | scalar s => exact ⟨by simp [Value.parts], by simp [Value.parts], by simp [Value.parts]⟩
  | pair a b =>
    refine ⟨by simp [Value.parts], by simp [Value.parts], fun a' b' hpair => ?_⟩
    rw [List.mem_singleton.1 hpair]
    exact hv
  | set members => exact ⟨by simp [Value.parts], by simp [Value.parts], by simp [Value.parts]⟩
  | list xs ys _ hmembers =>
    refine isExpanded_list fun y hy => ?_
    obtain ⟨x, hx, -, hexpanded⟩ := Outcome.exists_left_of_mem hmembers hy
    exact hexpanded (Value.mem_parts_trans hv (Value.member_mem_parts hx))
  | map es fs _ hnone hrow =>
    refine isExpanded_map ?_ (hentries (fun e he => hmember hv he) hrow)
    rw [← keys_eq_of_atKey hrow]
    exact not_mem_keys_of_ofFields? hplain hv hnone
  | overlaid es fs siblings reference node _ _ hsome htarget ih hrow =>
    have hnode := ih (target_mem_parts htarget)
    have hsiblings := hentries (fun e he => hmember hv (mem_of_mem_without he)) hrow
    refine isExpanded_map (fun hkey => ?_) fun f hf => ?_
    · obtain ⟨f, hf, hfkey⟩ := List.mem_map.1 hkey
      rcases (Entries.mem_putAll hf).1 with hbase | hextra
      · rw [hfkey] at hbase
        exact hnode.noReference fs (Value.self_mem_parts _) hbase
      · rw [hfkey, ← keys_eq_of_atKey hrow] at hextra
        exact not_mem_keys_without es hextra
    · obtain ⟨f', hf', hvalue⟩ := (Entries.mem_putAll hf).2
      rw [← hvalue]
      rcases List.mem_append.1 hf' with hbase | hextra
      · exact hnode.of_mem_parts (Value.value_mem_parts hbase)
      · exact hsiblings f' hextra
  | instead es reference node w _ _ _ htarget ih _ => exact ih (target_mem_parts htarget)

/-! ### Met references -/

/-- Whether a reference is met when a value is expanded. The keys beside a reference come up only if
what it names expands to a mapping. -/
inductive Meets (document : Value) : Value → Text → Prop
  | member {xs : List Value} {x : Value} {r : Text} : x ∈ xs → Meets document x r →
      Meets document (.list xs) r
  | value {es : Fields} {e : Scalar × Value} {r : Text} : ofFields? es = none → e ∈ es →
      Meets document e.2 r → Meets document (.map es) r
  | here {es : Fields} {r : Text} : ofFields? es = some r → Meets document (.map es) r
  | inside {es : Fields} {s r : Text} {node : Value} : ofFields? es = some s →
      target id document s = .ok node → Meets document node r → Meets document (.map es) r
  | beside {es fs : Fields} {e : Scalar × Value} {s r : Text} {node : Value} :
      ofFields? es = some s → target id document s = .ok node →
      ExpandsTo document node (.map fs) → e ∈ Entries.without refKey es →
      Meets document e.2 r → Meets document (.map es) r

/-- What is met in the node of a reference is met with the reference. -/
theorem Meets.trans {v node : Value} {r s : Text} (h : Meets document v r)
    (htarget : target id document r = .ok node) (hs : Meets document node s) :
    Meets document v s := by
  induction h with
  | member hx _ ih => exact .member hx (ih htarget)
  | value hnone he _ ih => exact .value hnone he (ih htarget)
  | here hsome => exact .inside hsome htarget hs
  | inside hsome htarget' _ ih => exact .inside hsome htarget' (ih htarget)
  | beside hsome htarget' hnode he _ ih => exact .beside hsome htarget' hnode he (ih htarget)

/-- Every reference that is met on the way to an expansion names a node. -/
theorem exists_target_of_expandsTo {v w : Value} {r : Text} (h : ExpandsTo document v w)
    (hmeets : Meets document v r) : ∃ node, target id document r = .ok node := by
  induction hmeets generalizing w with
  | member hx _ ih =>
    obtain ⟨ys, hys, -⟩ := expandsTo_list_iff.1 h
    obtain ⟨y, -, hxy⟩ := Outcome.exists_right_of_mem hys hx
    exact ih hxy
  | value hnone he _ ih =>
    obtain ⟨fs, hfs, -⟩ := (expandsTo_map_iff_of_none hnone).1 h
    obtain ⟨f, -, hentry⟩ := Outcome.exists_right_of_mem hfs he
    obtain ⟨key, hvalue⟩ := hentry
    exact ih hvalue
  | here hsome =>
    obtain ⟨node, htarget, -⟩ := (expandsTo_map_iff_of_some hsome).1 h
    exact ⟨node, htarget⟩
  | inside hsome htarget _ ih =>
    obtain ⟨node', htarget', u, hu, -⟩ := (expandsTo_map_iff_of_some hsome).1 h
    rw [htarget, Except.ok.injEq] at htarget'
    rw [← htarget'] at hu
    exact ih hu
  | beside hsome htarget hnode he _ ih =>
    obtain ⟨node', htarget', u, hu, hcases⟩ := (expandsTo_map_iff_of_some hsome).1 h
    rw [htarget, Except.ok.injEq] at htarget'
    rw [← htarget'] at hu
    have hmap := hnode.unique hu
    rcases hcases with ⟨fs, siblings, -, hsiblings, -⟩ | ⟨hfields, -⟩
    · obtain ⟨f, -, hentry⟩ := Outcome.exists_right_of_mem hsiblings he
      obtain ⟨key, hvalue⟩ := hentry
      exact ih hvalue
    · rw [← hmap] at hfields
      cases hfields

/-- Whether a reference is met again inside its own expansion. -/
def IsCircular (document : Value) : Prop :=
  ∃ r node, Meets document document r ∧ target id document r = .ok node ∧ Meets document node r

/-- Whatever is met from a part of the document on occurs in the document. -/
theorem mem_occurring_of_meets {v : Value} {r : Text} (h : Meets document v r)
    (hv : v ∈ document.parts) : r ∈ occurring document := by
  induction h with
  | member hx _ ih => exact ih (Value.mem_parts_trans hv (Value.member_mem_parts hx))
  | value _ he _ ih => exact ih (Value.mem_parts_trans hv (Value.value_mem_parts he))
  | here hsome => exact mem_occurring_of_mem_parts hv (mem_occurring_map.2 (Or.inl hsome))
  | inside _ htarget _ ih => exact ih (target_mem_parts htarget)
  | beside _ _ _ he _ ih =>
    exact ih (Value.mem_parts_trans hv (Value.value_mem_parts (mem_of_mem_without he)))

/-- A reference that is met occurs in the value, or lower in rank than one that does. -/
theorem occurring_of_meets {rank : Text → Nat}
    (hrank : ∀ r ∈ occurring document, ∀ node, target id document r = .ok node →
      ∀ s ∈ occurring node, rank s < rank r)
    {v : Value} {r : Text} (h : Meets document v r) (hv : v ∈ document.parts) :
    r ∈ occurring v ∨ ∃ s ∈ occurring v, rank r < rank s := by
  have hlift : ∀ {u v : Value} {r : Text}, u ∈ v.parts →
      (r ∈ occurring u ∨ ∃ s ∈ occurring u, rank r < rank s) →
      r ∈ occurring v ∨ ∃ s ∈ occurring v, rank r < rank s := by
    rintro u v r hu (hr | ⟨s, hs, hlt⟩)
    · exact Or.inl (mem_occurring_of_mem_parts hu hr)
    · exact Or.inr ⟨s, mem_occurring_of_mem_parts hu hs, hlt⟩
  induction h with
  | member hx _ ih =>
    have hpart := Value.member_mem_parts hx
    exact hlift hpart (ih (Value.mem_parts_trans hv hpart))
  | value _ he _ ih =>
    have hpart := Value.value_mem_parts he
    exact hlift hpart (ih (Value.mem_parts_trans hv hpart))
  | here hsome => exact Or.inl (mem_occurring_map.2 (Or.inl hsome))
  | @inside es s r node hsome htarget _ ih =>
    have hs : s ∈ occurring (.map es) := mem_occurring_map.2 (Or.inl hsome)
    have hlower := hrank s (mem_occurring_of_mem_parts hv hs) node htarget
    rcases ih (target_mem_parts htarget) with hr | ⟨s', hs', hlt⟩
    · exact Or.inr ⟨s, hs, hlower r hr⟩
    · exact Or.inr ⟨s, hs, hlt.trans (hlower s' hs')⟩
  | beside _ _ _ he _ ih =>
    have hpart := Value.value_mem_parts (mem_of_mem_without he)
    exact hlift hpart (ih (Value.mem_parts_trans hv hpart))

/-- Where every reference names a node with references of lower rank only, none is met again inside
its own expansion. -/
theorem not_isCircular_of_rank (rank : Text → Nat)
    (hrank : ∀ r ∈ occurring document, ∀ node, target id document r = .ok node →
      ∀ s ∈ occurring node, rank s < rank r) : ¬ IsCircular document := by
  rintro ⟨r, node, hmet, htarget, hagain⟩
  have hr : r ∈ occurring document := mem_occurring_of_meets hmet (Value.self_mem_parts document)
  have hlower := hrank r hr node htarget
  rcases occurring_of_meets hrank hagain (target_mem_parts htarget) with hin | ⟨s, hs, hlt⟩
  · exact absurd (hlower r hin) (Nat.lt_irrefl _)
  · exact absurd (hlt.trans (hlower s hs)) (Nat.lt_irrefl _)

end NodeForge.Reference
