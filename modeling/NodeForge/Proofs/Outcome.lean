import Mathlib.Data.List.Perm.Basic
import NodeForge.Node.Checked

/-!
# Runs that succeed

What it takes for a computation that may fail to give a result: every part of it gives one, and the
result is put together from theirs (`bind_eq_ok`, `map_eq_ok`, `mapM_eq_ok`). The lemmas on
`Except Failure` see through the step from a fault to a failure, so that a run of a staging function
comes apart into the results of its steps.
-/

namespace NodeForge.Outcome

variable {ε α β γ δ : Type}

/-! ### Steps one after the other -/

@[simp] theorem pure_eq_ok {a b : α} : (pure a : Except ε α) = .ok b ↔ a = b := by
  show (Except.ok a : Except ε α) = .ok b ↔ a = b
  rw [Except.ok.injEq]

theorem bind_eq_ok {x : Except ε α} {f : α → Except ε β} {b : β} :
    x >>= f = .ok b ↔ ∃ a, x = .ok a ∧ f a = .ok b := by
  cases x with
  | error e => simp [bind, Except.bind]
  | ok a => simp [bind, Except.bind]

theorem map_eq_ok {x : Except ε α} {f : α → β} {b : β} :
    f <$> x = .ok b ↔ ∃ a, x = .ok a ∧ f a = b := by
  cases x with
  | error e => simp [Functor.map, Except.map]
  | ok a => simp [Functor.map, Except.map]

/-- A run of two steps fails in the first one or, after it, in the second one. -/
theorem bind_eq_error {x : Except ε α} {f : α → Except ε β} {e : ε} :
    x >>= f = .error e ↔ x = .error e ∨ ∃ a, x = .ok a ∧ f a = .error e := by
  cases x with
  | error e' => simp [bind, Except.bind]
  | ok a => simp [bind, Except.bind]

theorem map_eq_error {x : Except ε α} {f : α → β} {e : ε} :
    f <$> x = .error e ↔ x = .error e := by
  cases x with
  | error e' => simp [Functor.map, Except.map]
  | ok a => simp [Functor.map, Except.map]

theorem bind_pure_eq_error {x : Except ε α} {g : α → β} {e : ε} :
    (x >>= fun a => pure (g a)) = .error e ↔ x = .error e := by
  rw [bind_eq_error]
  refine or_iff_left ?_
  rintro ⟨a, -, h⟩
  cases h

/-- A fault is lifted to a failure, and a result stays as it is. -/
@[simp] theorem lift_eq_ok {x : Except Fault α} {a : α} :
    (liftM x : Except Failure α) = .ok a ↔ x = .ok a := by
  show x.mapError Failure.fault = .ok a ↔ x = .ok a
  cases x with
  | error e => simp [Except.mapError]
  | ok b => simp [Except.mapError]

theorem lift_eq_error {x : Except Fault α} {f : Failure} :
    (liftM x : Except Failure α) = .error f ↔ ∃ g, x = .error g ∧ f = .fault g := by
  show x.mapError Failure.fault = .error f ↔ _
  cases x with
  | error g => simp [Except.mapError, eq_comm]
  | ok b => simp [Except.mapError]

@[simp] theorem failSpec_ne_ok {cause : SpecCause} {a : α} : failSpec cause ≠ .ok a := by
  unfold failSpec
  split <;> simp

theorem orFault_eq_ok {fault : Fault} {x : Option α} {a : α} :
    orFault fault x = .ok a ↔ x = some a := by
  cases x <;> simp [orFault]

theorem orFault_eq_error {fault f : Fault} {x : Option α} :
    orFault fault x = .error f ↔ x = none ∧ f = fault := by
  cases x <;> simp [orFault, eq_comm]

theorem toExcept_eq_ok {c : Checked α} {a : α} : c.toExcept = .ok a ↔ c = .good a := by
  cases c <;> simp [Checked.toExcept]

theorem under_eq_good {c : Checked α} {step : Text} {a : α} :
    c.under step = .good a ↔ c = .good a := by
  cases c <;> simp [Checked.under]

theorem map_eq_good {f : α → β} {c : Checked α} {b : β} :
    f <$> c = .good b ↔ ∃ a, c = .good a ∧ f a = b := by
  cases c with
  | good a => simp
  | bad ps =>
    refine iff_of_false nofun ?_
    rintro ⟨a, h, -⟩
    cases h

theorem seq_eq_good {f : Checked (α → β)} {c : Checked α} {b : β} :
    f <*> c = .good b ↔ ∃ g a, f = .good g ∧ c = .good a ∧ g a = b := by
  cases f with
  | good g => cases c with
    | good a => simp
    | bad ps =>
      refine iff_of_false nofun ?_
      rintro ⟨g, a, -, h, -⟩
      cases h
  | bad ps =>
    refine iff_of_false (by cases c <;> exact nofun) ?_
    rintro ⟨g, a, h, -⟩
    cases h

/-! ### Texts -/

theorem asText_eq_ok {fault : Fault} {s : Scalar} {t : Text} :
    s.asText fault = .ok t ↔ s = .str t := by
  cases s <;> simp [Scalar.asText]

/-! ### Rows -/

/-- A row of steps succeeds exactly with the results of the single steps. -/
theorem mapM_eq_ok {f : α → Except ε β} {xs : List α} {ys : List β} :
    xs.mapM f = .ok ys ↔ List.Forall₂ (fun x y => f x = .ok y) xs ys := by
  induction xs generalizing ys with
  | nil =>
    rw [List.mapM_nil, pure_eq_ok, List.forall₂_nil_left_iff]
    exact eq_comm
  | cons x xs ih =>
    rw [List.mapM_cons, bind_eq_ok]
    constructor
    · rintro ⟨y, hy, h⟩
      obtain ⟨rest, hrest, h⟩ := bind_eq_ok.1 h
      rw [pure_eq_ok] at h
      rw [← h]
      exact .cons hy (ih.1 hrest)
    · intro h
      obtain ⟨y, rest, hy, hrest, rfl⟩ := List.forall₂_cons_left_iff.1 h
      exact ⟨y, hy, bind_eq_ok.2 ⟨rest, ih.2 hrest, rfl⟩⟩

/-- In rows that belong together one by one, every member has its counterpart. -/
theorem exists_right_of_mem {R : α → β → Prop} {xs : List α} {ys : List β}
    (h : List.Forall₂ R xs ys) {x : α} (hx : x ∈ xs) : ∃ y ∈ ys, R x y := by
  induction h with
  | nil => simp at hx
  | @cons x' y xs ys hy _ ih =>
    rcases List.mem_cons.1 hx with rfl | hx
    · exact ⟨y, List.mem_cons_self, hy⟩
    · obtain ⟨z, hz, hxz⟩ := ih hx
      exact ⟨z, List.mem_cons_of_mem _ hz, hxz⟩

theorem exists_left_of_mem {R : α → β → Prop} {xs : List α} {ys : List β}
    (h : List.Forall₂ R xs ys) {y : β} (hy : y ∈ ys) : ∃ x ∈ xs, R x y :=
  exists_right_of_mem h.flip hy

/-- A member of the second row stands beside one of the first. -/
theorem exists_zip_of_mem {R : α → β → Prop} {xs : List α} {ys : List β} (h : List.Forall₂ R xs ys)
    {y : β} (hy : y ∈ ys) : ∃ x, (x, y) ∈ xs.zip ys ∧ R x y := by
  induction h with
  | nil => cases hy
  | @cons x y' xs ys hxy _ ih =>
    rcases List.mem_cons.1 hy with rfl | hy
    · exact ⟨x, List.mem_cons_self, hxy⟩
    · obtain ⟨x', hx', hR⟩ := ih hy
      exact ⟨x', List.mem_cons_of_mem _ hx', hR⟩

theorem map_eq_map_of_forall₂ {R : α → β → Prop} {f : α → γ} {g : β → γ}
    (hfg : ∀ a b, R a b → f a = g b) {xs : List α} {ys : List β} (h : List.Forall₂ R xs ys) :
    xs.map f = ys.map g := by
  rw [← List.forall₂_eq_eq_eq, List.forall₂_map_left_iff, List.forall₂_map_right_iff]
  exact h.imp hfg

theorem forall₂_comp {R : α → β → Prop} {S : β → γ → Prop} {T : α → γ → Prop}
    (hT : ∀ a b c, R a b → S b c → T a c) {xs : List α} {ys : List β} {zs : List γ}
    (hR : List.Forall₂ R xs ys) (hS : List.Forall₂ S ys zs) : List.Forall₂ T xs zs := by
  induction hR generalizing zs with
  | nil =>
    rw [List.forall₂_nil_left_iff] at hS
    rw [hS]
    exact .nil
  | cons hab _ ih =>
    obtain ⟨c, rest, hbc, hrest, rfl⟩ := List.forall₂_cons_left_iff.1 hS
    exact .cons (hT _ _ _ hab hbc) (ih hrest)

/-- What holds between the members of a row, in order, holds of their counterparts. -/
theorem pairwise_of_forall₂ {R : α → β → Prop} {S : α → α → Prop} {T : β → β → Prop}
    (hT : ∀ a b c d, R a c → R b d → S a b → T c d) {xs : List α} {ys : List β}
    (hR : List.Forall₂ R xs ys) (hS : xs.Pairwise S) : ys.Pairwise T := by
  induction hR with
  | nil => exact .nil
  | cons hxy hrest ih =>
    rw [List.pairwise_cons] at hS ⊢
    refine ⟨fun y' hy' => ?_, ih hS.2⟩
    obtain ⟨x', hx', hxy'⟩ := exists_left_of_mem hrest hy'
    exact hT _ _ _ _ hxy hxy' (hS.1 x' hx')

/-- What is made of two rows side by side, where the second one belongs to the first. -/
theorem forall₂_of_zip_map {R : α → β → Prop} {S : α → δ → γ → Prop} {g : β → δ}
    {xs : List α} {ys : List β} {zs : List γ} (hR : List.Forall₂ R xs ys)
    (hS : List.Forall₂ (fun e z => S e.1 e.2 z) (xs.zip (ys.map g)) zs) :
    List.Forall₂ (fun x z => ∃ y, R x y ∧ S x (g y) z) xs zs := by
  induction hR generalizing zs with
  | nil =>
    rw [List.forall₂_nil_left_iff.1 hS]
    exact .nil
  | cons hxy _ ih =>
    rw [List.map_cons, List.zip_cons_cons] at hS
    obtain ⟨z, rest, hz, hrest, rfl⟩ := List.forall₂_cons_left_iff.1 hS
    exact .cons ⟨_, hxy, hz⟩ (ih hrest)

/-- What belongs to two rows one behind the other are two rows, too. -/
theorem forall₂_append_left {R : α → β → Prop} {xs ys : List α} {zs : List β}
    (h : List.Forall₂ R (xs ++ ys) zs) :
    ∃ us vs, zs = us ++ vs ∧ List.Forall₂ R xs us ∧ List.Forall₂ R ys vs := by
  induction xs generalizing zs with
  | nil => exact ⟨[], zs, rfl, .nil, h⟩
  | cons x xs ih =>
    obtain ⟨z, rest, hz, hrest, rfl⟩ := List.forall₂_cons_left_iff.1 h
    obtain ⟨us, vs, rfl, hus, hvs⟩ := ih hrest
    exact ⟨z :: us, vs, rfl, .cons hz hus, hvs⟩

/-- What belongs to some members of a row are some of what belongs to all of them. -/
theorem exists_sublist_of_filter {R : α → β → Prop} (p : α → Bool) {xs : List α} {ys : List β}
    (h : List.Forall₂ R xs ys) : ∃ zs, zs.Sublist ys ∧ List.Forall₂ R (xs.filter p) zs := by
  induction h with
  | nil => exact ⟨[], .slnil, .nil⟩
  | @cons x y xs ys hxy _ ih =>
    obtain ⟨zs, hsub, hzs⟩ := ih
    rw [List.filter_cons]
    split
    · exact ⟨y :: zs, hsub.cons_cons y, .cons hxy hzs⟩
    · exact ⟨zs, hsub.cons y, hzs⟩

/-- Only the members of a row decide what belongs to it one by one. -/
theorem forall₂_congr_of_mem {R S : α → β → Prop} {xs : List α} {ys : List β}
    (h : ∀ x ∈ xs, ∀ y, R x y ↔ S x y) : List.Forall₂ R xs ys ↔ List.Forall₂ S xs ys := by
  induction xs generalizing ys with
  | nil => rw [List.forall₂_nil_left_iff, List.forall₂_nil_left_iff]
  | cons x xs ih =>
    rw [List.forall₂_cons_left_iff, List.forall₂_cons_left_iff]
    have hrest : ∀ {rest}, List.Forall₂ R xs rest ↔ List.Forall₂ S xs rest :=
      ih fun x' hx' => h x' (List.mem_cons_of_mem _ hx')
    simp only [h x List.mem_cons_self, hrest]

/-- A row belongs one by one to one other row only, if its members do. -/
theorem eq_of_forall₂ {R : α → β → Prop} {S : α → β → Prop}
    (hRS : ∀ a b c, R a b → S a c → b = c) {xs : List α} {ys zs : List β}
    (hR : List.Forall₂ R xs ys) (hS : List.Forall₂ S xs zs) : ys = zs := by
  have heq : List.Forall₂ Eq ys zs :=
    forall₂_comp (fun b a c hb hc => hRS a b c hb hc) hR.flip hS
  rwa [List.forall₂_eq_eq_eq] at heq

/-- If each member of a row has a counterpart, so has the row. -/
theorem exists_forall₂ {R : α → β → Prop} {xs : List α} (h : ∀ x ∈ xs, ∃ y, R x y) :
    ∃ ys, List.Forall₂ R xs ys := by
  induction xs with
  | nil => exact ⟨[], .nil⟩
  | cons x xs ih =>
    obtain ⟨y, hy⟩ := h x List.mem_cons_self
    obtain ⟨ys, hys⟩ := ih fun x' hx' => h x' (List.mem_cons_of_mem _ hx')
    exact ⟨y :: ys, .cons hy hys⟩

/-- What belongs one by one to the members of a row in another order is the same in another
order. -/
theorem perm_of_forall₂ {R : α → β → Prop} (hR : ∀ a b c, R a b → R a c → b = c)
    {xs xs' : List α} {ys ys' : List β} (h : xs.Perm xs') (hys : List.Forall₂ R xs ys)
    (hys' : List.Forall₂ R xs' ys') : ys.Perm ys' := by
  obtain ⟨zs, hzs, hperm⟩ := List.perm_comp_forall₂ h hys'
  rwa [eq_of_forall₂ hR hys hzs]

theorem exists_ok_of_mem {f : α → Except ε β} {xs : List α} {ys : List β}
    (h : xs.mapM f = .ok ys) {x : α} (hx : x ∈ xs) : ∃ y ∈ ys, f x = .ok y :=
  exists_right_of_mem (mapM_eq_ok.1 h) hx

/-- The results of a row of steps are those of the single ones. -/
theorem mem_iff_of_mapM {f : α → Except ε β} {xs : List α} {ys : List β} (h : xs.mapM f = .ok ys)
    {y : β} : y ∈ ys ↔ ∃ x ∈ xs, f x = .ok y := by
  constructor
  · exact exists_left_of_mem (mapM_eq_ok.1 h)
  · rintro ⟨x, hx, hy⟩
    obtain ⟨y', hy', hxy⟩ := exists_ok_of_mem h hx
    rwa [← Except.ok.inj (hxy.symm.trans hy)]

/-- A row of steps succeeds if each of them does. -/
theorem exists_mapM_eq_ok {f : α → Except ε β} {xs : List α} :
    (∃ ys, xs.mapM f = .ok ys) ↔ ∀ x ∈ xs, ∃ y, f x = .ok y := by
  constructor
  · rintro ⟨ys, h⟩ x hx
    obtain ⟨y, -, hy⟩ := exists_ok_of_mem h hx
    exact ⟨y, hy⟩
  · intro h
    obtain ⟨ys, hys⟩ := exists_forall₂ h
    exact ⟨ys, mapM_eq_ok.2 hys⟩

/-- A row of steps fails as one of them does. -/
theorem exists_error_of_mapM {f : α → Except ε β} {xs : List α} {e : ε}
    (h : xs.mapM f = .error e) : ∃ x ∈ xs, f x = .error e := by
  induction xs with
  | nil => cases h
  | cons x xs ih =>
    rw [List.mapM_cons] at h
    rcases bind_eq_error.1 h with hx | ⟨y, -, h⟩
    · exact ⟨x, List.mem_cons_self, hx⟩
    · rcases bind_eq_error.1 h with hxs | ⟨ys, -, h⟩
      · obtain ⟨x', hx', hfail⟩ := ih hxs
        exact ⟨x', List.mem_cons_of_mem _ hx', hfail⟩
      · cases h

/-- What each step makes sure of holds of all results. -/
theorem exists_mapM_forall {f : α → Except ε β} {P : β → Prop} {xs : List α}
    (h : ∀ x ∈ xs, ∃ y, f x = .ok y ∧ P y) : ∃ ys, xs.mapM f = .ok ys ∧ ∀ y ∈ ys, P y := by
  obtain ⟨ys, hys⟩ := exists_forall₂ h
  refine ⟨ys, mapM_eq_ok.2 (hys.imp fun _ _ hxy => hxy.1), fun y hy => ?_⟩
  obtain ⟨x, -, hxy⟩ := exists_left_of_mem hys hy
  exact hxy.2

theorem mapM_eq_self {f : α → Except ε α} {xs : List α} (h : ∀ x ∈ xs, f x = .ok x) :
    xs.mapM f = .ok xs :=
  mapM_eq_ok.2 (List.forall₂_same.2 h)

theorem mapM_congr {f g : α → Except ε β} {xs : List α} (h : ∀ x ∈ xs, f x = g x) :
    xs.mapM f = xs.mapM g := by
  induction xs with
  | nil => rfl
  | cons x xs ih =>
    rw [List.mapM_cons, List.mapM_cons, h x List.mem_cons_self,
      ih fun x' hx' => h x' (List.mem_cons_of_mem _ hx')]

theorem isOk_iff {x : Except ε α} : x.isOk = true ↔ ∃ a, x = .ok a := by
  cases x <;> simp [Except.isOk, Except.toBool]

theorem exists_ok_of_any {x : Except ε α} {p : α → Bool} (h : x.toOption.any p = true) :
    ∃ a, x = .ok a ∧ p a = true := by
  cases x with
  | error e => cases h
  | ok a => exact ⟨a, rfl, h⟩

/-- If each result is a function of what it came from, so is the row of results. -/
theorem mapM_eq_map {f : α → Except ε β} {g : α → β} {xs : List α} {ys : List β}
    (h : xs.mapM f = .ok ys) (hg : ∀ x ∈ xs, ∀ y, f x = .ok y → y = g x) : ys = xs.map g := by
  have h2 := mapM_eq_ok.1 h
  clear h
  induction h2 with
  | nil => rfl
  | cons hy _ ih =>
    rw [List.map_cons, hg _ List.mem_cons_self _ hy,
      ih fun x hx => hg x (List.mem_cons_of_mem _ hx)]

/-- The loop behind `List.filterM`, which collects what it keeps in front of `kept`. -/
theorem filterAuxM_eq_ok {f : α → Except ε Bool} {p : α → Bool} {xs kept ys : List α}
    (h : xs.filterAuxM f kept = .ok ys) (hp : ∀ x ∈ xs, ∀ b, f x = .ok b → b = p x) :
    ys = (xs.filter p).reverse ++ kept := by
  induction xs generalizing kept with
  | nil =>
    rw [List.filterAuxM, pure_eq_ok] at h
    simp [h]
  | cons x xs ih =>
    rw [List.filterAuxM] at h
    obtain ⟨b, hb, h⟩ := bind_eq_ok.1 h
    have hrest := ih h fun y hy => hp y (List.mem_cons_of_mem _ hy)
    rw [hp x List.mem_cons_self b hb] at hrest
    rw [hrest, List.filter_cons]
    cases p x <;> simp

/-- If the test of a member can only answer `p`, what is left is what satisfies `p`. -/
theorem filterM_eq_filter {f : α → Except ε Bool} {p : α → Bool} {xs ys : List α}
    (h : xs.filterM f = .ok ys) (hp : ∀ x ∈ xs, ∀ b, f x = .ok b → b = p x) :
    ys = xs.filter p := by
  obtain ⟨kept, hkept, h⟩ := bind_eq_ok.1 h
  rw [pure_eq_ok] at h
  rw [← h, filterAuxM_eq_ok hkept hp, List.append_nil, List.reverse_reverse]

end NodeForge.Outcome
