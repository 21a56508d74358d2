import Mathlib.Data.Fintype.Fin
import Mathlib.Order.Bounds.Defs
import NodeForge.Proofs.Document.Spelling
import NodeForge.Proofs.Naming.Ids

/-!
# Ids in their places

`Given` says step by step what ids are given. Here the same is said place by place: which id the
candidate at a place wants (`Wants`), and what it gets for it, looking at the places before it
(`NumbersInTurn`). A search goes through the wanted id and the same id with the numbers from 2 on
(`EndsAt`). It passes over no more ids than there are places before, since different numbers make
different ids, so it comes to an end. `assigns_in_turn` puts all this together with the warnings,
of which there is one for each place where the id that is given is not the one that is wanted.
-/

namespace NodeForge

/-! ### Wanted ids -/

section Wanted

variable {candidates : List Candidate} {i : Fin candidates.length}

/-- Whether the canonical id of a candidate is that of another one, too. -/
def IsShared (candidates : List Candidate) (i : Fin candidates.length) : Prop :=
  ∃ j, j ≠ i ∧ (candidates.get j).canonical = (candidates.get i).canonical

/-- Whether an id is the one that a candidate wants: the variant, if the canonical id is shared and
there is a variant that is not empty, and the canonical id otherwise. -/
inductive Wants (candidates : List Candidate) (i : Fin candidates.length) : Text → Prop
  | variant {v : Text} (hshared : IsShared candidates i)
      (hvariant : (candidates.get i).variant = some v) (hv : v ≠ []) : Wants candidates i v
  | canonical
      (h : ¬ (IsShared candidates i ∧ ∃ v, (candidates.get i).variant = some v ∧ v ≠ [])) :
      Wants candidates i (candidates.get i).canonical

/-- The id that the candidate at a place would like to have. -/
def wantedAt (candidates : List Candidate) (i : Fin candidates.length) : Text :=
  preferredId candidates (candidates.get i)

theorem preferredIds_eq_ofFn (candidates : List Candidate) :
    preferredIds candidates = List.ofFn (wantedAt candidates) := by
  rw [preferredIds_eq_map]
  exact (List.ofFn_getElem_eq_map candidates (preferredId candidates)).symm

/-- The members of a row with a property are counted by their places. -/
theorem countP_eq_card {α : Type} (p : α → Bool) (row : List α) :
    row.countP p = (Finset.univ.filter fun i : Fin row.length => p (row.get i) = true).card := by
  calc row.countP p = ((List.finRange row.length).map row.get).countP p := by
        rw [List.map_get_finRange]
    _ = ((List.finRange row.length).filter (p ∘ row.get)).length := by
        rw [List.countP_map, List.countP_eq_length_filter]
    _ = ((List.finRange row.length).filter fun i => decide (p (row.get i) = true)).length := by
        simp only [Bool.decide_eq_true, Function.comp_def]

/-- Several candidates have the canonical id of one of them exactly if it is shared. -/
theorem isShared_iff : IsShared candidates i ↔
    1 < candidates.countP fun d => d.canonical == (candidates.get i).canonical := by
  rw [countP_eq_card, IsShared]
  simp only [beq_iff_eq]
  constructor
  · rintro ⟨j, hne, hsame⟩
    exact Finset.one_lt_card.2 ⟨j, by simpa using hsame, i, by simp, hne⟩
  · intro h
    obtain ⟨j, hj, hne⟩ := Finset.exists_mem_ne h i
    exact ⟨j, hne, (Finset.mem_filter.1 hj).2⟩

theorem wantedAt_of_variant {v : Text} (hshared : IsShared candidates i)
    (hvariant : (candidates.get i).variant = some v) (hv : v ≠ []) :
    wantedAt candidates i = v := by
  rw [wantedAt, preferredId, hvariant]
  refine if_pos ?_
  rw [Bool.and_eq_true, decide_eq_true_eq, Bool.not_eq_true', List.isEmpty_eq_false_iff]
  exact ⟨isShared_iff.1 hshared, hv⟩

theorem wantedAt_of_not
    (h : ¬ (IsShared candidates i ∧ ∃ v, (candidates.get i).variant = some v ∧ v ≠ [])) :
    wantedAt candidates i = (candidates.get i).canonical := by
  rw [wantedAt, preferredId]
  split
  · next v hvariant =>
    refine if_neg fun hboth => h ?_
    rw [Bool.and_eq_true, decide_eq_true_eq, Bool.not_eq_true', List.isEmpty_eq_false_iff] at hboth
    exact ⟨isShared_iff.2 hboth.1, v, hvariant, hboth.2⟩
  · rfl

/-- A candidate wants one id, which is the preferred one. -/
theorem wants_iff {p : Text} : Wants candidates i p ↔ p = wantedAt candidates i := by
  constructor
  · rintro (⟨hshared, hvariant, hv⟩ | h)
    · exact (wantedAt_of_variant hshared hvariant hv).symm
    · exact (wantedAt_of_not h).symm
  · rintro rfl
    by_cases h : IsShared candidates i ∧ ∃ v, (candidates.get i).variant = some v ∧ v ≠ []
    · obtain ⟨hshared, v, hvariant, hv⟩ := h
      rw [wantedAt_of_variant hshared hvariant hv]
      exact .variant hshared hvariant hv
    · rw [wantedAt_of_not h]
      exact .canonical h

end Wanted

/-! ### Searching a new id -/

/-- What is tried for a wanted id in turn: the id itself, and then the id with each number from 2
on. -/
def trial (wanted : Text) (n : Nat) : Text := if n ≤ 1 then wanted else numbered wanted n

theorem trial_one (wanted : Text) : trial wanted 1 = wanted := rfl

theorem trial_of_two_le {wanted : Text} {n : Nat} (h : 2 ≤ n) :
    trial wanted n = numbered wanted n :=
  if_neg (by omega)

theorem numbered_ne (wanted : Text) (n : Nat) : numbered wanted n ≠ wanted := by
  intro h
  exact Numeral.ofNat_ne_nil n (List.append_cancel_left (h.trans (List.append_nil _).symm))

/-- Different numbers make different trials. -/
theorem trial_injOn (wanted : Text) : Set.InjOn (trial wanted) {n | 1 ≤ n} := by
  intro m hm n hn h
  rcases Nat.eq_or_lt_of_le hm with rfl | hm <;> rcases Nat.eq_or_lt_of_le hn with rfl | hn
  · rfl
  · rw [trial_one, trial_of_two_le hn] at h
    exact absurd h.symm (numbered_ne wanted n)
  · rw [trial_one, trial_of_two_le hm] at h
    exact absurd h (numbered_ne wanted m)
  · rw [trial_of_two_le hm, trial_of_two_le hn] at h
    exact numbered_injective wanted h

/-- Whether the search that begins with a number ends at another one: what is taken is passed over,
and the first new id is found. -/
inductive EndsAt (taken : Set Text) (wanted : Text) : (start stop : Nat) → Prop
  | found {n : Nat} (hnew : trial wanted n ∉ taken) : EndsAt taken wanted n n
  | passed {n m : Nat} (htaken : trial wanted n ∈ taken) (hrest : EndsAt taken wanted (n + 1) m) :
      EndsAt taken wanted n m

/-- A search ends at the first number whose trial is new. -/
theorem endsAt_iff {taken : Set Text} {wanted : Text} {n m : Nat} :
    EndsAt taken wanted n m ↔
      n ≤ m ∧ (∀ k, n ≤ k → k < m → trial wanted k ∈ taken) ∧ trial wanted m ∉ taken := by
  constructor
  · intro h
    induction h with
    | found hnew => exact ⟨Nat.le_refl _, fun k hk hlt => absurd hlt (Nat.not_lt.2 hk), hnew⟩
    | passed htaken _ ih =>
      obtain ⟨hle, hpassed, hnew⟩ := ih
      refine ⟨by omega, fun k hk hlt => ?_, hnew⟩
      rcases Nat.eq_or_lt_of_le hk with rfl | hk
      · exact htaken
      · exact hpassed k hk hlt
  · rintro ⟨hle, hpassed, hnew⟩
    induction hle using Nat.decreasingInduction with
    | self => exact .found hnew
    | of_succ k hk ih =>
      exact .passed (hpassed k (Nat.le_refl k) hk) (ih fun k' hk' => hpassed k' (by omega))

/-- A search passes over no more ids than there are taken ones. -/
theorem le_length_of_passed {taken : List Text} {wanted : Text} {n : Nat}
    (hpassed : ∀ k, 1 ≤ k → k < n → trial wanted k ∈ taken) : n ≤ taken.length + 1 := by
  have hinjective : Function.Injective fun k => trial wanted (k + 1) := by
    intro j k h
    have := trial_injOn wanted (Nat.le_add_left 1 j) (Nat.le_add_left 1 k) h
    omega
  have hle := le_length_of_forall_mem hinjective fun k (hk : k < n - 1) =>
    hpassed (k + 1) (by omega) (by omega)
  omega

/-- What is given next is where the search ends. -/
theorem GivenNext.endsAt {before : List Text} {w g : Text} (h : GivenNext before w g) :
    ∃ k ≤ before.length + 1, EndsAt {t | t ∈ before} w 1 k ∧ g = trial w k := by
  cases h with
  | plain hnew => exact ⟨1, by omega, .found hnew, rfl⟩
  | withNumber k hwanted htwo hnew hleast =>
    have hpassed : ∀ j, 1 ≤ j → j < k → trial w j ∈ before := by
      intro j hj hlt
      rcases Nat.eq_or_lt_of_le hj with rfl | hj
      · exact hwanted
      · rw [trial_of_two_le hj]
        exact hleast j hj hlt
    have hgiven : trial w k = numbered w k := trial_of_two_le htwo
    rw [← hgiven] at hnew ⊢
    exact ⟨k, le_length_of_passed hpassed, endsAt_iff.2 ⟨by omega, hpassed, hnew⟩, rfl⟩

/-! ### Places -/

section Places

variable {n : Nat} {wanted given : Fin n → Text}

/-- The ids that are given before a place. -/
def earlier (given : Fin n → Text) (i : Fin n) : Set Text := {t | ∃ j < i, given j = t}

/-- Whether ids are given in turn for the wanted ones: each one where it is new, and otherwise with
the least number from 2 on that makes it new. -/
structure NumbersInTurn (wanted given : Fin n → Text) : Prop where
  injective : Function.Injective given
  plain : ∀ i, wanted i ∉ earlier given i → given i = wanted i
  withNumber : ∀ i, wanted i ∈ earlier given i →
    ∃ k, IsLeast {k | 2 ≤ k ∧ numbered (wanted i) k ∉ earlier given i} k ∧
      given i = numbered (wanted i) k
  ends : ∀ i, ∃ k ≤ i.val + 1, EndsAt (earlier given i) (wanted i) 1 k ∧
    given i = trial (wanted i) k

/-- Whether there is one warning for each place where the id that is given is not the wanted one, in
the order of the places. -/
def WarnsOfEach (wanted given : Fin n → Text) (warnings : List Warning) : Prop :=
  ∃ late : List (Fin n), late.Pairwise (· < ·) ∧ (∀ i, i ∈ late ↔ given i ≠ wanted i) ∧
    warnings = late.map fun i => .renamed (wanted i) (given i)

/-- What is given at a place is new behind what was given before the run and in it. -/
theorem Given.next {before wanted given : List Text} (h : Given before wanted given) {i : Nat}
    {w g : Text} (hw : wanted[i]? = some w) (hg : given[i]? = some g) :
    GivenNext ((given.take i).reverse ++ before) w g := by
  induction h generalizing i with
  | nil => cases hw
  | cons hnext _ ih =>
    cases i with
    | zero =>
      cases hw
      cases hg
      exact hnext
    | succ i =>
      rw [List.getElem?_cons_succ] at hw hg
      have hrest := ih hw hg
      rwa [List.append_cons, ← List.reverse_cons, ← List.take_succ_cons] at hrest

theorem mem_take_ofFn_iff {t : Text} {i : Fin n} :
    t ∈ (List.ofFn given).take i ↔ t ∈ earlier given i := by
  rw [List.mem_take_iff_getElem]
  simp only [List.length_ofFn, List.getElem_ofFn]
  constructor
  · rintro ⟨j, hj, rfl⟩
    exact ⟨⟨j, by omega⟩, Fin.lt_def.2 (by dsimp only; omega), rfl⟩
  · rintro ⟨j, hj, rfl⟩
    exact ⟨j, by omega, rfl⟩

/-- What is given at a place is new behind what was given at the places before. -/
theorem Given.at (h : Given [] (List.ofFn wanted) (List.ofFn given)) (i : Fin n) :
    ∃ before : List Text, before.length = i.val ∧ {t | t ∈ before} = earlier given i ∧
      GivenNext before (wanted i) (given i) := by
  have hw : (List.ofFn wanted)[i.val]? = some (wanted i) := by simp
  have hg : (List.ofFn given)[i.val]? = some (given i) := by simp
  refine ⟨_, ?_, Set.ext fun t => ?_, h.next hw hg⟩
  · simp
  · rw [Set.mem_ofPred_eq, List.append_nil, List.mem_reverse, mem_take_ofFn_iff]

/-- Ids that are given one after the other are given in turn. -/
theorem Given.numbersInTurn (h : Given [] (List.ofFn wanted) (List.ofFn given)) :
    NumbersInTurn wanted given := by
  refine ⟨List.nodup_ofFn.1 h.nodup.1, fun i hnew => ?_, fun i htaken => ?_, fun i => ?_⟩ <;>
    obtain ⟨before, hlength, hbefore, hnext⟩ := h.at i
  · rw [← hbefore] at hnew
    generalize given i = g at hnext
    cases hnext with
    | plain => rfl
    | withNumber k hwanted => exact absurd hwanted hnew
  · rw [← hbefore] at htaken ⊢
    generalize given i = g at hnext
    cases hnext with
    | plain hnew => exact absurd htaken hnew
    | withNumber k _ htwo hnew hleast =>
      refine ⟨k, ⟨⟨htwo, hnew⟩, ?_⟩, rfl⟩
      rintro j ⟨hj, hnot⟩
      exact Nat.le_of_not_lt fun hlt => hnot (hleast j hj hlt)
  · rw [← hbefore, ← hlength]
    exact hnext.endsAt

end Places

/-! ### Assigned ids -/

/-- The id that the candidate at a place gets. -/
def givenAt (candidates : List Candidate) (i : Fin candidates.length) : Text :=
  (assignIds candidates).get (i.cast (length_assignIds candidates).symm)

theorem assignIds_eq_ofFn (candidates : List Candidate) :
    assignIds candidates = List.ofFn (givenAt candidates) := by
  refine List.ext_getElem (by simp [length_assignIds]) fun i hi hi' => ?_
  rw [List.getElem_ofFn]
  rfl

theorem numbersInTurn_givenAt (candidates : List Candidate) :
    NumbersInTurn (wantedAt candidates) (givenAt candidates) := by
  have h := given_assignIds candidates
  rw [preferredIds_eq_ofFn, assignIds_eq_ofFn] at h
  exact h.numbersInTurn

theorem warnsOfEach_renamings (candidates : List Candidate) :
    WarnsOfEach (wantedAt candidates) (givenAt candidates) (renamings candidates) := by
  refine ⟨(List.finRange candidates.length).filter fun i =>
    givenAt candidates i ≠ wantedAt candidates i, ?_, fun i => by simp, ?_⟩
  · exact (List.pairwise_lt_finRange _).filter _
  · rw [renamings, preferredIds_eq_ofFn, assignIds_eq_ofFn, List.ofFn_eq_map, List.ofFn_eq_map,
      List.zip_map', List.filterMap_map, ← List.filterMap_eq_map, List.filterMap_filter]
    refine List.filterMap_congr fun i _ => ?_
    by_cases h : givenAt candidates i = wantedAt candidates i <;>
      simp [h, eq_comm (a := wantedAt candidates i)]

/-- **Ids in turn.** Whatever the candidates are, each of them wants one id, and as many different
ids are given as there are candidates. At each place the search ends after at most as many steps as
there are places before it. It gives the wanted id, if none of the ids before is that one, and
otherwise the wanted id with the least number from 2 on that none of them is. There is one warning
for each place where the id that is given is not the wanted one. -/
theorem assigns_in_turn (candidates : List Candidate) :
    (∀ i p, Wants candidates i p ↔ p = wantedAt candidates i) ∧
    (assignIds candidates).length = candidates.length ∧ (assignIds candidates).Nodup ∧
    assignIds candidates = List.ofFn (givenAt candidates) ∧
    NumbersInTurn (wantedAt candidates) (givenAt candidates) ∧
    WarnsOfEach (wantedAt candidates) (givenAt candidates) (renamings candidates) :=
  ⟨fun _ _ => wants_iff, length_assignIds candidates, nodup_assignIds candidates,
    assignIds_eq_ofFn candidates, numbersInTurn_givenAt candidates,
    warnsOfEach_renamings candidates⟩

end NodeForge
