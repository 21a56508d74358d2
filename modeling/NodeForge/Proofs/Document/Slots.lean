import Mathlib.Algebra.Ring.Nat
import Mathlib.Data.List.Perm.Basic
import Mathlib.Data.Nat.ModEq
import Mathlib.Logic.Function.Iterate
import Mathlib.Tactic.Ring
import NodeForge.Document.Slots

/-!
# Sets keep their members when they are made anew

The members of a set come up in another order once they have been put into slots, but none is lost
and none comes in (`inOrder_perm`). What has to be shown is that a free slot is found: a member that
is put into a slot that is taken would drive out the member there.

A code leads from slot to slot. When nothing is left of it, the way goes on from `x` to `5 * x + 1`,
and since the number of slots is a power of two it comes by every slot before it comes back to one
(`exists_iterate_onward`). So a free slot is found as soon as there is one, and there is always one,
since a table that fills up gets more slots.
-/

namespace NodeForge.Slots

/-! ### A way past all slots -/

/-- Where the way of a code goes on from a slot when nothing is left of the code. -/
def onward (x : Nat) : Nat := 5 * x + 1

theorem iterate_onward_two_pow (k : Nat) :
    ∃ a b, ∀ x, onward^[2 ^ k] x = (1 + 2 ^ (k + 2) * a) * x + 2 ^ k * (1 + 2 * b) := by
  induction k with
  | zero => exact ⟨1, 0, fun x => by simp [onward]⟩
  | succ k ih =>
    obtain ⟨a, b, h⟩ := ih
    refine ⟨a + 2 ^ (k + 1) * a * a, b + 2 ^ k * a * (1 + 2 * b), fun x => ?_⟩
    rw [pow_succ, mul_two, Function.iterate_add_apply, h, h]
    ring

/-- As many steps as a power of two change the next bit and none below it. -/
theorem iterate_onward_modEq (k x : Nat) : onward^[2 ^ k] x ≡ x + 2 ^ k [MOD 2 ^ (k + 1)] := by
  obtain ⟨a, b, h⟩ := iterate_onward_two_pow k
  have hsum : onward^[2 ^ k] x = x + 2 ^ k + 2 ^ (k + 1) * (2 * a * x + b) := by
    rw [h]
    ring
  rw [hsum]
  exact Nat.add_modEq_left_iff.2 (Nat.dvd_mul_right _ _)

/-- Two numbers that agree up to a bit agree at this bit too, or do so after it is changed. -/
theorem modEq_or_add_modEq {n y i : Nat} (hn : 0 < n) (h : y ≡ i [MOD n]) :
    y ≡ i [MOD n * 2] ∨ y + n ≡ i [MOD n * 2] := by
  simp only [Nat.ModEq, Nat.mod_mul, Nat.add_mod_right, Nat.add_div_right y hn] at h ⊢
  have hbit : y / n % 2 = i / n % 2 ∨ (y / n).succ % 2 = i / n % 2 := by omega
  rw [h]
  rcases hbit with hbit | hbit
  · exact Or.inl (by rw [hbit])
  · exact Or.inr (by rw [hbit])

theorem exists_iterate_onward (k x i : Nat) : ∃ m < 2 ^ k, onward^[m] x ≡ i [MOD 2 ^ k] := by
  induction k with
  | zero => exact ⟨0, by decide, Nat.modEq_one⟩
  | succ k ih =>
    obtain ⟨m, hm, h⟩ := ih
    rw [pow_succ]
    rcases modEq_or_add_modEq (Nat.two_pow_pos k) h with hdone | hnext
    · exact ⟨m, by omega, hdone⟩
    · refine ⟨2 ^ k + m, by omega, ?_⟩
      rw [Function.iterate_add_apply]
      exact (iterate_onward_modEq k _).trans hnext

/-! ### Free slots -/

/-- Whether a slot is there and nothing lies in it. -/
def IsFree (t : Table) (i : Nat) : Prop := t[i]? = some none

/-- The next slot on the way of a code, beside what is left of the code. -/
def next (size : Nat) (place : Nat × Nat) : Nat × Nat :=
  ((5 * place.1 + 1 + place.2 / 32) % size, place.2 / 32)

theorem isNone_join_iff {t : Table} {i : Nat} (h : i < t.size) :
    (t[i]?.join).isNone = true ↔ IsFree t i := by
  rw [IsFree, Array.getElem?_eq_getElem h]
  cases t[i] <;> simp

/-- A free slot on the way of a code is found. -/
theorem isFree_freeSlot {t : Table} {fuel slot rest : Nat} (hslot : slot < t.size)
    (h : ∃ j < fuel, IsFree t ((next t.size)^[j] (slot, rest)).1) :
    IsFree t (freeSlot t fuel slot rest) := by
  induction fuel generalizing slot rest with
  | zero =>
    obtain ⟨j, hj, -⟩ := h
    exact absurd hj (Nat.not_lt_zero j)
  | succ fuel ih =>
    -- the slots that are looked at in one go are all there, and the first of them is on the way
    obtain ⟨row, hrow, hinside, hself⟩ : ∃ row : List Nat,
        (if slot + rowLength < t.size then List.range' slot (rowLength + 1) else [slot]) = row ∧
          (∀ i ∈ row, i < t.size) ∧ slot ∈ row := by
      refine ⟨_, rfl, ?_⟩
      split
      · next hlt =>
        refine ⟨fun i hi => ?_, ?_⟩
        · rw [List.mem_range'_1] at hi
          omega
        · rw [List.mem_range'_1]
          omega
      · exact ⟨fun i hi => by rwa [List.mem_singleton.1 hi], List.mem_singleton_self slot⟩
    rw [freeSlot, hrow]
    cases hfind : row.find? fun i => (t[i]?.join).isNone with
    | some i =>
      have hi := hinside i (List.mem_of_find?_eq_some hfind)
      exact (isNone_join_iff hi).1 (List.find?_some (p := fun i => (t[i]?.join).isNone) hfind)
    | none =>
      have htaken : ¬ IsFree t slot := fun hfree =>
        List.find?_eq_none.1 hfind slot hself ((isNone_join_iff hslot).2 hfree)
      obtain ⟨j, hj, hfree⟩ := h
      cases j with
      | zero => exact absurd hfree htaken
      | succ j =>
        rw [Function.iterate_succ_apply] at hfree
        exact ih (Nat.mod_lt _ (by omega)) ⟨j, by omega, hfree⟩

/-- The codes of which nothing is left after the first slots. -/
def codeBound : Nat := 32 ^ 13

theorem iterate_next_snd (size : Nat) (place : Nat × Nat) (n : Nat) :
    ((next size)^[n] place).2 = place.2 / 32 ^ n := by
  induction n with
  | zero => simp
  | succ n ih =>
    rw [Function.iterate_succ_apply', next, ih, Nat.div_div_eq_div_mul, pow_succ]

theorem iterate_next_of_zero {size slot : Nat} (h : slot < size) (n : Nat) :
    (next size)^[n] (slot, 0) = (onward^[n] slot % size, 0) := by
  induction n with
  | zero => simp [Nat.mod_eq_of_lt h]
  | succ n ih =>
    rw [Function.iterate_succ_apply', ih, Function.iterate_succ_apply', next, onward]
    simp [Nat.add_mod, Nat.mul_mod]

/-- The way of a code comes by every slot. -/
theorem exists_iterate_next {k rest i : Nat} (slot : Nat) (hrest : rest < codeBound)
    (hi : i < 2 ^ k) : ∃ j < 2 ^ k + 13, ((next (2 ^ k))^[j] (slot, rest)).1 = i := by
  obtain ⟨start, hstart⟩ : ∃ start, (next (2 ^ k))^[13] (slot, rest) = (start, 0) := by
    have hsnd := iterate_next_snd (2 ^ k) (slot, rest) 13
    exact ⟨_, Prod.ext rfl (hsnd.trans (Nat.div_eq_of_lt hrest))⟩
  have hlt : start < 2 ^ k := by
    rw [Function.iterate_succ_apply', next, Prod.mk.injEq] at hstart
    rw [← hstart.1]
    exact Nat.mod_lt _ (Nat.two_pow_pos k)
  obtain ⟨m, hm, hmod⟩ := exists_iterate_onward k start i
  refine ⟨m + 13, by omega, ?_⟩
  rw [Function.iterate_add_apply, hstart, iterate_next_of_zero hlt]
  exact Eq.trans hmod (Nat.mod_eq_of_lt hi)

/-! ### Putting one member in -/

/-- Whether a table has as many slots as a power of two. -/
def IsTable (t : Table) : Prop := ∃ k, t.size = 2 ^ k

theorem exists_isFree {t : Table} (h : (membersOf t).length < t.size) : ∃ i, IsFree t i := by
  rw [membersOf, ← Array.length_toList, List.length_filterMap_lt_length_iff_exists] at h
  obtain ⟨slot, hslot, rfl⟩ := h
  obtain ⟨i, hi⟩ := List.mem_iff_getElem?.1 hslot
  exact ⟨i, by rwa [IsFree, ← Array.getElem?_toList]⟩

/-- A member that is put into a free slot comes to the others. -/
theorem membersOf_set {t : Table} {i : Nat} (h : IsFree t i) (m : Coded) :
    (membersOf (t.setIfInBounds i (some m))).Perm (m :: membersOf t) := by
  obtain ⟨hi, hfree⟩ := Array.getElem?_eq_some_iff.1 h
  rw [← Array.length_toList] at hi
  have hsplit : t.toList = t.toList.take i ++ none :: t.toList.drop (i + 1) := by
    rw [← hfree, ← Array.getElem_toList hi, ← List.drop_eq_getElem_cons hi, List.take_append_drop]
  rw [membersOf, membersOf, Array.toList_setIfInBounds, List.set_eq_take_append_cons_drop, if_pos hi]
  conv_rhs => rw [hsplit]
  simp only [List.filterMap_append]
  exact List.perm_middle

theorem membersOf_put {t : Table} (ht : IsTable t) (hroom : (membersOf t).length < t.size)
    {m : Coded} (hcode : m.code < codeBound) :
    (membersOf (put t m)).Perm (m :: membersOf t) := by
  obtain ⟨k, hk⟩ := ht
  obtain ⟨i, hi⟩ := exists_isFree hroom
  have hlt : i < t.size := (Array.getElem?_eq_some_iff.1 hi).1
  obtain ⟨j, hj, hway⟩ := exists_iterate_next (m.code % t.size) hcode (hk ▸ hlt)
  rw [← hk] at hj hway
  exact membersOf_set (isFree_freeSlot (Nat.mod_lt _ (by omega)) ⟨j, hj, hway ▸ hi⟩) m

@[simp] theorem size_put (t : Table) (m : Coded) : (put t m).size = t.size :=
  Array.size_setIfInBounds

/-- Putting members in one by one, where there are slots for all of them. -/
theorem membersOf_foldl_put {all : List Coded} (hcodes : ∀ m ∈ all, m.code < codeBound) {t : Table}
    (ht : IsTable t) (hroom : (membersOf t).length + all.length ≤ t.size) :
    (membersOf (all.foldl put t)).Perm (all ++ membersOf t) ∧ (all.foldl put t).size = t.size := by
  induction all generalizing t with
  | nil => exact ⟨.refl _, rfl⟩
  | cons m all ih =>
    rw [List.length_cons] at hroom
    have hput := membersOf_put ht (by omega) (hcodes m List.mem_cons_self)
    have hlength := hput.length_eq
    rw [List.length_cons] at hlength
    obtain ⟨hperm, hsize⟩ := ih (fun m hm => hcodes m (List.mem_cons_of_mem _ hm))
      (by rwa [IsTable, size_put] : IsTable (put t m)) (by rw [size_put]; omega)
    refine ⟨?_, by rw [List.foldl_cons, hsize, size_put]⟩
    rw [List.foldl_cons]
    exact hperm.trans ((hput.append_left all).trans List.perm_middle)

/-! ### Tables that grow -/

theorem sizeBeyond_spec {n fuel k : Nat} (h : n < 2 ^ k * 2 ^ fuel) :
    (∃ j, sizeBeyond n fuel (2 ^ k) = 2 ^ j) ∧ n < sizeBeyond n fuel (2 ^ k) := by
  induction fuel generalizing k with
  | zero =>
    rw [pow_zero, Nat.mul_one] at h
    exact ⟨⟨k, rfl⟩, h⟩
  | succ fuel ih =>
    rw [sizeBeyond]
    split
    · next hlt => exact ⟨⟨k, rfl⟩, hlt⟩
    · rw [Nat.mul_comm, ← pow_succ]
      refine ih ?_
      rwa [pow_succ, Nat.mul_assoc, ← pow_succ']

theorem tableBeyond_spec (n : Nat) :
    IsTable (tableBeyond n) ∧ n < (tableBeyond n).size ∧ membersOf (tableBeyond n) = [] := by
  have hbound : n < 2 ^ 3 * 2 ^ (n + 1) := by
    have hself : n < 2 ^ n := Nat.lt_two_pow_self
    rw [pow_succ]
    omega
  obtain ⟨hpower, hlt⟩ := sizeBeyond_spec hbound
  rw [IsTable, tableBeyond, Array.size_replicate, membersOf, Array.toList_replicate]
  exact ⟨hpower, hlt, by simp⟩

/-- Whether a table has slots to spare for its members. -/
structure HasRoom (t : Table) : Prop where
  isTable : IsTable t
  codes : ∀ m ∈ membersOf t, m.code < codeBound
  notCrowded : 5 * (membersOf t).length < 3 * (t.size - 1)

/-- A member that is put in comes to the others, and there are slots to spare again. -/
theorem HasRoom.putGrowing {t : Table} (h : HasRoom t) {m : Coded} (hcode : m.code < codeBound) :
    HasRoom (putGrowing t m) ∧ (membersOf (putGrowing t m)).Perm (m :: membersOf t) := by
  have hroom := h.notCrowded
  have hput := membersOf_put h.isTable (by omega) hcode
  have hcodes : ∀ x ∈ membersOf (put t m), x.code < codeBound := by
    intro x hx
    rcases List.mem_cons.1 (hput.subset hx) with rfl | hx
    · exact hcode
    · exact h.codes x hx
  rw [Slots.putGrowing]
  split
  · -- all members are put into a larger table
    obtain ⟨hlarger, hsize, hempty⟩ := tableBeyond_spec (4 * (membersOf (put t m)).length)
    obtain ⟨hperm, hsame⟩ := membersOf_foldl_put hcodes hlarger (by rw [hempty]; simp; omega)
    rw [hempty, List.append_nil] at hperm
    refine ⟨⟨?_, fun x hx => hcodes x (hperm.subset hx), ?_⟩, hperm.trans hput⟩
    · rwa [IsTable, hsame]
    · have hlength := hput.length_eq
      rw [List.length_cons] at hlength
      rw [hperm.length_eq, hsame]
      omega
  · next hcrowded =>
    refine ⟨⟨?_, hcodes, ?_⟩, hput⟩
    · rw [IsTable, size_put]
      exact h.isTable
    · rw [isCrowded, decide_eq_true_iff] at hcrowded
      omega

theorem membersOf_foldl_putGrowing {all : List Coded} (hcodes : ∀ m ∈ all, m.code < codeBound)
    {t : Table} (h : HasRoom t) :
    (membersOf (all.foldl putGrowing t)).Perm (all ++ membersOf t) := by
  induction all generalizing t with
  | nil => exact .refl _
  | cons m all ih =>
    obtain ⟨hroom, hput⟩ := h.putGrowing (hcodes m List.mem_cons_self)
    have hrest := ih (fun m hm => hcodes m (List.mem_cons_of_mem _ hm)) hroom
    rw [List.foldl_cons]
    exact hrest.trans ((hput.append_left all).trans List.perm_middle)

/-! ### Codes -/

theorem word_lt {negative : Bool} {code : Nat} (h : code < codeBound) :
    word negative code < codeBound := by
  rw [word]
  split
  · exact Nat.lt_of_le_of_lt (Nat.sub_le _ _) (by decide)
  · exact h

theorem rowCode_lt (codes : List Nat) : rowCode codes < codeBound := by
  rw [rowCode]
  split
  · decide
  · exact Nat.lt_trans (UInt64.toNat_lt _) (by decide)

theorem codeAt?_lt {place : Scalar.Place} {code : Nat} (h : codeAt? place = some code) :
    code < codeBound := by
  cases place with
  | «at» n d =>
    rw [codeAt?, Option.some.injEq] at h
    rw [← h]
    exact word_lt (Nat.lt_trans (Nat.mod_lt _ (by decide)) (by decide))
  | above | below =>
    rw [codeAt?, Option.some.injEq] at h
    rw [← h]
    exact word_lt (by decide)
  | nowhere which => cases h

theorem code?_lt {s : Scalar} {code : Nat} (h : code? s = some code) : code < codeBound := by
  unfold code? at h
  split at h
  · rw [← Option.some.inj h]
    decide
  · rw [← Option.some.inj h]
    decide
  · rw [← Option.some.inj h]
    decide
  · split at h
    · rw [← Option.some.inj h]
      exact rowCode_lt _
    · cases h
  · obtain ⟨place, -, hplace⟩ := Option.bind_eq_some_iff.1 h
    exact codeAt?_lt hplace

theorem coded?_spec {members : List Scalar} {all : List Coded} (h : coded? members = some all) :
    (∀ m ∈ all, m.code < codeBound) ∧ all.map Coded.member = members := by
  induction members generalizing all with
  | nil =>
    obtain rfl := Option.some.inj h
    exact ⟨nofun, rfl⟩
  | cons s members ih =>
    rw [coded?, List.mapM_cons] at h
    obtain ⟨m, hm, h⟩ := Option.bind_eq_some_iff.1 h
    obtain ⟨rest, hrest, h⟩ := Option.bind_eq_some_iff.1 h
    obtain ⟨code, hcode, rfl⟩ := Option.map_eq_some_iff.1 hm
    obtain rfl := Option.some.inj h
    obtain ⟨hcodes, hmembers⟩ := ih hrest
    exact ⟨List.forall_mem_cons.2 ⟨code?_lt hcode, hcodes⟩, congrArg (s :: ·) hmembers⟩

/-- **Sets made anew.** Putting the members of a set into slots loses none of them. -/
theorem inOrder_perm (members : List Scalar) : (inOrder members).Perm members := by
  rw [inOrder]
  split
  · next all hall =>
    obtain ⟨hcodes, hmembers⟩ := coded?_spec hall
    obtain ⟨hstart, hsize, hempty⟩ := tableBeyond_spec 0
    have hroom : HasRoom (tableBeyond 0) := by
      refine ⟨hstart, by simp [hempty], ?_⟩
      rw [hempty]
      decide
    have hperm := (membersOf_foldl_putGrowing hcodes hroom).map Coded.member
    rwa [hempty, List.append_nil, hmembers] at hperm
  · exact .refl _

end NodeForge.Slots
