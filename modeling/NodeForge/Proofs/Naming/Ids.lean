import Mathlib.Data.List.Nodup
import Mathlib.Data.List.Perm.Subperm
import NodeForge.Naming.OperationId
import NodeForge.Proofs.Document.Entries

/-!
# Ids of the operations of a resource

The ids are given one after the other, and each looks at those before it alone. `GivenNext` says
what one step gives and `Given` what a whole run gives; `given_assignIds` is the bridge to the
program. From it come the two facts that the rest of the theory uses: the ids are all different
(`nodup_assignIds`), and each is one that its own candidate allows (`allows_assignIds`).

A taken id gets a number. There is a free one among the next `taken.length + 1` numbers, since
different numbers make different ids (`not_mem_numberFrom`).
-/

namespace NodeForge

/-! ### Numbers behind an id -/

theorem ofNat_injective : Function.Injective Numeral.ofNat := by
  intro m n h
  have hchars : m.repr.toList = n.repr.toList :=
    List.map_injective_iff.2 (fun _ _ h => Sign.char.inj h) h
  rw [Nat.toList_repr, Nat.toList_repr] at hchars
  calc m = Nat.ofDigitChars 10 (Nat.toDigits 10 m) 0 := (Nat.ofDigitChars_ten_toDigits).symm
    _ = Nat.ofDigitChars 10 (Nat.toDigits 10 n) 0 := by rw [hchars]
    _ = n := Nat.ofDigitChars_ten_toDigits

theorem numbered_injective (id : Text) : Function.Injective (numbered id) := by
  intro m n h
  exact ofNat_injective (List.append_cancel_left h)

/-- Passing over numbers stops at the first one that is not taken, or at the bound. -/
theorem numberFrom_spec (taken : List Text) (id : Text) (bound n : Nat) :
    ∃ i ≤ bound, numberFrom taken id bound n = n + i ∧
      (∀ j < i, numbered id (n + j) ∈ taken) ∧ (i < bound → numbered id (n + i) ∉ taken) := by
  induction bound generalizing n with
  | zero => exact ⟨0, Nat.le_refl 0, rfl, by simp, by simp⟩
  | succ bound ih =>
    rw [numberFrom]
    split
    · next htaken =>
      -- `n` is passed over too, so everything is one number further on
      obtain ⟨i, hi, heq, hpassed, hfree⟩ := ih (n + 1)
      have hshift (j : Nat) : n + 1 + j = n + (j + 1) := by omega
      refine ⟨i + 1, by omega, by rw [heq, hshift], ?_, ?_⟩
      · intro j hj
        cases j with
        | zero => exact List.contains_iff_mem.1 htaken
        | succ j =>
          rw [← hshift]
          exact hpassed j (by omega)
      · intro hlt
        rw [← hshift]
        exact hfree (by omega)
    · next hnot =>
      exact ⟨0, by omega, rfl, by simp, fun _ hmem => hnot (List.contains_iff_mem.2 hmem)⟩

/-- Different texts that are all taken are no more than the taken ones. -/
theorem le_length_of_forall_mem {taken : List Text} {f : Nat → Text} (hf : Function.Injective f)
    {m : Nat} (h : ∀ k < m, f k ∈ taken) : m ≤ taken.length := by
  have hsubset : (List.range m).map f ⊆ taken := by
    intro t ht
    obtain ⟨k, hk, rfl⟩ := List.mem_map.1 ht
    exact h k (List.mem_range.1 hk)
  have hlength := ((List.nodup_range.map hf).subperm hsubset).length_le
  rwa [List.length_map, List.length_range] at hlength

/-- Not all of `bound + 1` numbers make ids that are among `bound` others. -/
theorem exists_not_mem_numbered (taken : List Text) (id : Text) (n : Nat) :
    ∃ j ≤ taken.length, numbered id (n + j) ∉ taken := by
  by_contra! hall
  have hinjective : Function.Injective fun j => numbered id (n + j) := by
    intro i j h
    have := numbered_injective id h
    omega
  have hle := le_length_of_forall_mem hinjective fun k (hk : k < taken.length + 1) =>
    hall k (by omega)
  omega

theorem not_mem_numberFrom (taken : List Text) (id : Text) (n : Nat) :
    numbered id (numberFrom taken id taken.length n) ∉ taken := by
  obtain ⟨i, hi, heq, hpassed, hfree⟩ := numberFrom_spec taken id taken.length n
  rw [heq]
  rcases Nat.lt_or_ge i taken.length with hlt | hge
  · exact hfree hlt
  · -- all the others are taken, so the free one is the last
    obtain ⟨j, hj, hnot⟩ := exists_not_mem_numbered taken id n
    rcases Nat.lt_or_ge j i with hji | hji
    · exact absurd (hpassed j hji) hnot
    · have : j = i := by omega
      rwa [this] at hnot

/-! ### Giving ids -/

/-- What is given for a wanted id behind the `earlier` ones: the id itself where it is new, and
otherwise the id with the least number from 2 on that makes it new. -/
inductive GivenNext (earlier : List Text) (wanted : Text) : Text → Prop
  | plain (h : wanted ∉ earlier) : GivenNext earlier wanted wanted
  | withNumber (n : Nat) (hwanted : wanted ∈ earlier) (htwo : 2 ≤ n)
      (hnew : numbered wanted n ∉ earlier)
      (hleast : ∀ k, 2 ≤ k → k < n → numbered wanted k ∈ earlier) :
      GivenNext earlier wanted (numbered wanted n)

/-- What is given for wanted ids in turn, where each one that is given counts for the next. -/
inductive Given : List Text → List Text → List Text → Prop
  | nil {earlier : List Text} : Given earlier [] []
  | cons {earlier wanted given : List Text} {w g : Text} (hnext : GivenNext earlier w g)
      (hrest : Given (g :: earlier) wanted given) : Given earlier (w :: wanted) (g :: given)

/-- The numbers below those that are noted for the next search are in use. -/
def NotedSoundly (taken : List Text) (next : List (Text × Nat)) : Prop :=
  ∀ id n, next.lookup id = some n → 2 ≤ n ∧ ∀ k, 2 ≤ k → k < n → numbered id k ∈ taken

theorem NotedSoundly.weaken {taken : List Text} {next : List (Text × Nat)} (g : Text)
    (h : NotedSoundly taken next) : NotedSoundly (g :: taken) next := by
  intro id n hn
  obtain ⟨htwo, hused⟩ := h id n hn
  exact ⟨htwo, fun k hk hlt => List.mem_cons_of_mem _ (hused k hk hlt)⟩

/-- The search begins where all smaller numbers are in use. -/
theorem NotedSoundly.start {taken : List Text} {next : List (Text × Nat)}
    (h : NotedSoundly taken next) (id : Text) :
    2 ≤ (next.lookup id).getD 2 ∧
      ∀ k, 2 ≤ k → k < (next.lookup id).getD 2 → numbered id k ∈ taken := by
  cases hn : next.lookup id with
  | none => exact ⟨Nat.le_refl 2, fun k hk hlt => absurd hlt (Nat.not_lt.2 hk)⟩
  | some n => exact h id n hn

/-- A taken id is given with the least number that makes it new, and it is sound to note the number
behind it. -/
theorem NotedSoundly.givenNext {taken : List Text} {next : List (Text × Nat)} {id : Text}
    (h : NotedSoundly taken next) (hid : id ∈ taken) :
    let n := numberFrom taken id taken.length ((next.lookup id).getD 2)
    GivenNext taken id (numbered id n) ∧
      NotedSoundly (numbered id n :: taken) (Entries.put id (n + 1) next) := by
  intro n
  obtain ⟨htwo, hused⟩ := h.start id
  obtain ⟨i, hi, heq, hpassed, -⟩ :=
    numberFrom_spec taken id taken.length ((next.lookup id).getD 2)
  have hn : n = (next.lookup id).getD 2 + i := heq
  have hleast : ∀ k, 2 ≤ k → k < n → numbered id k ∈ taken := by
    intro k hk hlt
    -- a smaller number is in use by what was noted, or was passed over just now
    rcases Nat.lt_or_ge k ((next.lookup id).getD 2) with hbefore | hafter
    · exact hused k hk hbefore
    · have hk' := hpassed (k - (next.lookup id).getD 2) (by omega)
      rwa [Nat.add_sub_cancel' hafter] at hk'
  refine ⟨.withNumber n hid (by omega) (not_mem_numberFrom taken id _) hleast, ?_⟩
  intro id' m hm
  rw [Entries.lookup_put] at hm
  split at hm
  · next heq =>
    rw [Option.some.injEq] at hm
    rw [eq_of_beq heq, ← hm]
    refine ⟨by omega, fun k hk hlt => ?_⟩
    -- the new note counts the number that is given, too
    rcases Nat.lt_or_ge k n with hkn | hkn
    · exact List.mem_cons_of_mem _ (hleast k hk hkn)
    · have : k = n := by omega
      rw [this]
      exact List.mem_cons_self
  · exact h.weaken _ id' m hm

theorem given_assignFrom {taken : List Text} {next : List (Text × Nat)}
    (h : NotedSoundly taken next) (wanted : List Text) :
    Given taken wanted (assignFrom taken next wanted) := by
  induction wanted generalizing taken next with
  | nil => exact .nil
  | cons id rest ih =>
    rw [assignFrom]
    split
    · next htaken =>
      obtain ⟨hgiven, hnoted⟩ := h.givenNext (List.contains_iff_mem.1 htaken)
      exact .cons hgiven (ih hnoted)
    · next hnot =>
      exact .cons (.plain fun hmem => hnot (List.contains_iff_mem.2 hmem)) (ih (h.weaken id))

/-- **Ids in turn.** Every operation gets the id that it prefers, or where an earlier one has that
id already, the id with the least number from 2 on that makes it new. -/
theorem given_assignIds (candidates : List Candidate) :
    Given [] (preferredIds candidates) (assignIds candidates) :=
  given_assignFrom (fun _ _ h => by simp at h) _

example : assignIds [⟨"find", none⟩, ⟨"find", none⟩, ⟨"find2", none⟩] =
    (["find", "find2", "find22"] : List Text) := by
  decide

/-! ### What is given is new -/

theorem GivenNext.not_mem {earlier : List Text} {w g : Text} (h : GivenNext earlier w g) :
    g ∉ earlier := by
  cases h with
  | plain h => exact h
  | withNumber n _ _ hnew _ => exact hnew

theorem Given.length_eq {earlier wanted given : List Text} (h : Given earlier wanted given) :
    given.length = wanted.length := by
  induction h with
  | nil => rfl
  | cons _ _ ih => rw [List.length_cons, List.length_cons, ih]

theorem Given.nodup {earlier wanted given : List Text} (h : Given earlier wanted given) :
    given.Nodup ∧ ∀ g ∈ given, g ∉ earlier := by
  induction h with
  | nil => exact ⟨.nil, by simp⟩
  | cons hnext _ ih =>
    -- the rest is new beside the id that is given here
    obtain ⟨hnodup, hnew⟩ := ih
    refine ⟨List.nodup_cons.2 ⟨fun hmem => hnew _ hmem List.mem_cons_self, hnodup⟩, ?_⟩
    intro g' hg'
    rcases List.mem_cons.1 hg' with rfl | hg'
    · exact hnext.not_mem
    · exact fun hmem => hnew g' hg' (List.mem_cons_of_mem _ hmem)

theorem length_preferredIds (candidates : List Candidate) :
    (preferredIds candidates).length = candidates.length := by
  rw [preferredIds, List.length_map]

theorem length_assignIds (candidates : List Candidate) :
    (assignIds candidates).length = candidates.length := by
  rw [(given_assignIds candidates).length_eq, length_preferredIds]

/-- The operations of a resource get different ids. -/
theorem nodup_assignIds (candidates : List Candidate) : (assignIds candidates).Nodup :=
  (given_assignIds candidates).nodup.1

/-! ### Ids that are wanted once -/

/-- Where all wanted ids are different and new, they are given. -/
theorem Given.eq_of_nodup {earlier wanted given : List Text} (h : Given earlier wanted given)
    (hnodup : wanted.Nodup) (hnew : ∀ w ∈ wanted, w ∉ earlier) : given = wanted := by
  induction h with
  | nil => rfl
  | @cons earlier wanted given w g hnext _ ih =>
    obtain ⟨hw, hnodup⟩ := List.nodup_cons.1 hnodup
    cases hnext with
    | withNumber n hwanted => exact absurd hwanted (hnew w List.mem_cons_self)
    | plain =>
      rw [ih hnodup fun w' hw' => ?_]
      rw [List.mem_cons, not_or]
      refine ⟨?_, hnew w' (List.mem_cons_of_mem _ hw')⟩
      rintro rfl
      exact hw hw'

theorem assignIds_eq_of_nodup {candidates : List Candidate}
    (h : (preferredIds candidates).Nodup) : assignIds candidates = preferredIds candidates :=
  (given_assignIds candidates).eq_of_nodup h fun _ _ => by simp

/-- The id that a candidate would like beside others. -/
def preferredId (others : List Candidate) (c : Candidate) : Text :=
  match c.variant with
  | some variant =>
    if (others.countP fun d => d.canonical == c.canonical) > 1 && !variant.isEmpty then variant
    else c.canonical
  | none => c.canonical

theorem preferredIds_eq_map (candidates : List Candidate) :
    preferredIds candidates = candidates.map (preferredId candidates) := rfl

/-- The order of the others does not count. -/
theorem preferredId_congr {others others' : List Candidate} (h : others.Perm others') :
    preferredId others = preferredId others' := by
  funext c
  unfold preferredId
  rw [h.countP_eq]

theorem preferredIds_perm {candidates candidates' : List Candidate}
    (h : candidates.Perm candidates') :
    (preferredIds candidates).Perm (preferredIds candidates') := by
  rw [preferredIds_eq_map, preferredIds_eq_map, preferredId_congr h]
  exact h.map _

/-! ### What is given is allowed -/

/-- An id that a candidate allows by itself: the canonical one or the variant. -/
def Candidate.Names (c : Candidate) (id : Text) : Prop := id = c.canonical ∨ c.variant = some id

/-- An id that a candidate allows: one of its own, or one of its own with a number behind it. -/
def Candidate.Allows (c : Candidate) (id : Text) : Prop :=
  ∃ own, c.Names own ∧ (id = own ∨ ∃ n, 2 ≤ n ∧ id = numbered own n)

theorem names_preferredIds (candidates : List Candidate) :
    List.Forall₂ Candidate.Names candidates (preferredIds candidates) := by
  rw [preferredIds, List.forall₂_map_right_iff, List.forall₂_same]
  intro c _
  split
  · next variant hvariant =>
    split
    · exact Or.inr hvariant
    · exact Or.inl rfl
  · exact Or.inl rfl

theorem Given.allows {candidates : List Candidate} {earlier wanted given : List Text}
    (h : Given earlier wanted given) (hnames : List.Forall₂ Candidate.Names candidates wanted) :
    List.Forall₂ Candidate.Allows candidates given := by
  induction h generalizing candidates with
  | nil =>
    rw [List.forall₂_nil_right_iff] at hnames
    rw [hnames]
    exact .nil
  | @cons _ _ _ w g hnext _ ih =>
    obtain ⟨c, cs, hc, hcs, rfl⟩ := List.forall₂_cons_right_iff.1 hnames
    refine .cons ⟨w, hc, ?_⟩ (ih hcs)
    cases hnext with
    | plain => exact Or.inl rfl
    | withNumber n _ htwo => exact Or.inr ⟨n, htwo, rfl⟩

/-- Each operation gets an id that its own candidate allows. -/
theorem allows_assignIds (candidates : List Candidate) :
    List.Forall₂ Candidate.Allows candidates (assignIds candidates) :=
  (given_assignIds candidates).allows (names_preferredIds candidates)

end NodeForge
