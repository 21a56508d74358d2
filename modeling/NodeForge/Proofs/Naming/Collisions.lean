import Mathlib.Data.Fintype.Card
import Mathlib.Order.Interval.Finset.Nat
import NodeForge.Proofs.Naming.Turns

/-!
# Ids that are numbered

An id is numbered where another candidate wants the same one. It can also happen that a number makes
an id out of a repeated one that a later candidate alone wants: of `find`, `find` and `find2` the
second one is given `find2`, so the third one has to be numbered, too. This is the only way in which
a candidate loses an id that nobody else wants (`NumbersInTurn.ne_iff_of_isSole`). Where no such id
is made, only ids that several candidates want are numbered (`NumbersInTurn.exists_of_ne`), and
where no wanted id is another one with digits behind it, the candidates that want an id are
numbered in their order (`NumbersInTurn.eq_trial_rank`).
-/

namespace NodeForge

section Places

variable {n : Nat} {wanted given : Fin n → Text} {i j : Fin n}

/-! ### Ids that are wanted once -/

/-- Whether the id that is wanted at a place is wanted nowhere else. -/
def IsSole (wanted : Fin n → Text) (i : Fin n) : Prop := ∀ j, wanted j = wanted i → j = i

instance : DecidablePred (IsSole wanted) := fun i =>
  inferInstanceAs (Decidable (∀ j, wanted j = wanted i → j = i))

/-- Whether the id at a place, which is wanted nowhere else, is an id that is wanted several times
with a number from 2 on behind it. -/
def IsImitated (wanted : Fin n → Text) (i : Fin n) : Prop :=
  IsSole wanted i ∧ ∃ j, ¬ IsSole wanted j ∧ ∃ k, 2 ≤ k ∧ numbered (wanted j) k = wanted i

/-- What is not the wanted id has a number. -/
theorem NumbersInTurn.exists_number (h : NumbersInTurn wanted given) (hne : given i ≠ wanted i) :
    ∃ k, 2 ≤ k ∧ given i = numbered (wanted i) k := by
  have htaken : wanted i ∈ earlier given i := by
    by_contra hnew
    exact hne (h.plain i hnew)
  obtain ⟨k, hk, hgiven⟩ := h.withNumber i htaken
  exact ⟨k, hk.1.1, hgiven⟩

/-- An id that is wanted once is not given exactly if an earlier place was given it with a number
behind another id. -/
theorem NumbersInTurn.ne_iff_of_isSole (h : NumbersInTurn wanted given) (hi : IsSole wanted i) :
    given i ≠ wanted i ↔ ∃ j < i, wanted j ≠ wanted i ∧
      ∃ k, 2 ≤ k ∧ given j = numbered (wanted j) k ∧ numbered (wanted j) k = wanted i := by
  constructor
  · intro hne
    obtain ⟨j, hj, hgiven⟩ : wanted i ∈ earlier given i := by
      by_contra hnew
      exact hne (h.plain i hnew)
    have hother : wanted j ≠ wanted i := fun hsame => absurd (hi j hsame) hj.ne
    obtain ⟨k, hk, hnumbered⟩ := h.exists_number (i := j) (hgiven ▸ hother.symm)
    exact ⟨j, hj, hother, k, hk, hnumbered, hnumbered ▸ hgiven⟩
  · rintro ⟨j, hj, -, k, -, hgiven, hnumbered⟩ hsame
    exact absurd (h.injective (hgiven.trans (hnumbered.trans hsame.symm))) hj.ne

/-- All ids that are wanted once are given exactly if no place where an id is wanted several times
is given one of them. -/
theorem NumbersInTurn.forall_eq_iff (h : NumbersInTurn wanted given) :
    (∀ i, IsSole wanted i → given i = wanted i) ↔
      ∀ i j, IsSole wanted i → ¬ IsSole wanted j → given j ≠ wanted i := by
  constructor
  · intro hall i j hi hj hgiven
    rw [h.injective (hgiven.trans (hall i hi).symm)] at hj
    exact hj hi
  · intro hnone i hi
    induction i using WellFoundedLT.induction with
    | ind i ih =>
      by_contra hne
      obtain ⟨j, hj, -, k, -, hgiven, hnumbered⟩ := (h.ne_iff_of_isSole hi).1 hne
      refine hnone i j hi (fun hsole => ?_) (hgiven.trans hnumbered)
      -- an earlier id that is wanted once has no number
      exact numbered_ne (wanted j) k (hgiven.symm.trans (ih j hj hsole))

/-- Where no number makes an id that is wanted once, only ids that are wanted several times are
numbered. -/
theorem NumbersInTurn.exists_of_ne (h : NumbersInTurn wanted given)
    (hfree : ∀ i, ¬ IsImitated wanted i) (hne : given i ≠ wanted i) :
    ∃ j, j ≠ i ∧ wanted j = wanted i := by
  by_contra! hsole
  refine hne (h.forall_eq_iff.2 (fun i j hi hj hgiven => ?_) i fun j hsame => ?_)
  · have hother : given j ≠ wanted j := by
      intro hsame
      rw [hi j (hsame.symm.trans hgiven)] at hj
      exact hj hi
    obtain ⟨k, hk, hnumbered⟩ := h.exists_number hother
    exact hfree i ⟨hi, j, hj, k, hk, hnumbered.symm.trans hgiven⟩
  · by_contra hji
    exact hsole j hji hsame

/-! ### Ids that are wanted several times -/

/-- The places before a place where the same id is wanted. -/
def alike (wanted : Fin n → Text) (i : Fin n) : Finset (Fin n) :=
  Finset.univ.filter fun j => j < i ∧ wanted j = wanted i

/-- How many places up to a place want its id. -/
def rank (wanted : Fin n → Text) (i : Fin n) : Nat := (alike wanted i).card + 1

theorem mem_alike : j ∈ alike wanted i ↔ j < i ∧ wanted j = wanted i := by
  simp [alike]

theorem rank_lt_rank (hj : j ∈ alike wanted i) : rank wanted j < rank wanted i := by
  obtain ⟨hlt, hsame⟩ := mem_alike.1 hj
  refine Nat.succ_lt_succ (Finset.card_lt_card ⟨fun k hk => ?_, fun hsub => ?_⟩)
  · obtain ⟨hkj, hkj'⟩ := mem_alike.1 hk
    exact mem_alike.2 ⟨hkj.trans hlt, hkj'.trans hsame⟩
  · exact absurd (mem_alike.1 (hsub hj)).1 (lt_irrefl j)

/-- The places before that want the same id have all smaller ranks. -/
theorem image_rank_alike : (alike wanted i).image (rank wanted) =
    Finset.Icc 1 (alike wanted i).card := by
  refine Finset.eq_of_subset_of_card_le (fun k hk => ?_) ?_
  · obtain ⟨j, hj, rfl⟩ := Finset.mem_image.1 hk
    have hlt := rank_lt_rank hj
    exact Finset.mem_Icc.2 ⟨Nat.le_add_left 1 _, Nat.le_of_lt_succ hlt⟩
  · have hinj : Set.InjOn (rank wanted) (alike wanted i) := by
      intro j hj k hk heq
      obtain ⟨-, hj⟩ := mem_alike.1 hj
      obtain ⟨-, hk⟩ := mem_alike.1 hk
      -- of two of these places the earlier one has the smaller rank
      rcases lt_trichotomy j k with hlt | hsame | hlt
      · exact absurd heq (rank_lt_rank (mem_alike.2 ⟨hlt, hj.trans hk.symm⟩)).ne
      · exact hsame
      · exact absurd heq.symm (rank_lt_rank (mem_alike.2 ⟨hlt, hk.trans hj.symm⟩)).ne
    rw [Finset.card_image_of_injOn hinj, Nat.card_Icc, Nat.add_sub_cancel]

/-- Whether an id is another one with digits behind it. -/
def Continues (id other : Text) : Prop :=
  ∃ digits : Text, digits ≠ [] ∧ (∀ s ∈ digits, s.meets Char.isDigit = true) ∧ id = other ++ digits

instance (id other : Text) : Decidable (Continues id other) :=
  decidable_of_iff (id.drop other.length ≠ [] ∧
      (∀ s ∈ id.drop other.length, s.meets Char.isDigit = true) ∧
      id = other ++ id.drop other.length) (by
    constructor
    · rintro ⟨hne, hdigits, heq⟩
      exact ⟨_, hne, hdigits, heq⟩
    · rintro ⟨digits, hne, hdigits, rfl⟩
      rw [List.drop_left]
      exact ⟨hne, hdigits, rfl⟩)

theorem meets_isDigit_of_mem_ofNat {k : Nat} :
    ∀ s ∈ Numeral.ofNat k, s.meets Char.isDigit = true := by
  intro s hs
  obtain ⟨c, hc, rfl⟩ := Numeral.isDigit_of_mem_ofNat hs
  exact hc

theorem continues_numbered (id : Text) (k : Nat) : Continues (numbered id k) id :=
  ⟨_, Numeral.ofNat_ne_nil k, meets_isDigit_of_mem_ofNat, rfl⟩

theorem not_isImitated (hapart : ∀ i j, ¬ Continues (wanted i) (wanted j)) (i : Fin n) :
    ¬ IsImitated wanted i := by
  rintro ⟨-, j, -, k, -, hnumbered⟩
  exact hapart i j (hnumbered ▸ continues_numbered (wanted j) k)

theorem eq_of_eq_append {id other digits : Text} (hnot : ¬ Continues id other)
    (hid : id = other ++ digits) (hdigits : ∀ s ∈ digits, s.meets Char.isDigit = true) :
    id = other := by
  by_contra hne
  refine hnot ⟨digits, ?_, hdigits, hid⟩
  rintro rfl
  exact hne (hid.trans (List.append_nil other))

theorem exists_digits_trial (id : Text) (k : Nat) :
    ∃ digits : Text, (∀ s ∈ digits, s.meets Char.isDigit = true) ∧ trial id k = id ++ digits := by
  unfold trial
  split
  · exact ⟨[], by simp, (List.append_nil id).symm⟩
  · exact ⟨_, meets_isDigit_of_mem_ofNat, rfl⟩

/-- A trial tells the id that is wanted, where no wanted id continues another one. -/
theorem eq_of_trial_eq (hapart : ∀ i j, ¬ Continues (wanted i) (wanted j)) {k m : Nat}
    (h : trial (wanted i) k = trial (wanted j) m) : wanted i = wanted j := by
  obtain ⟨ds, hds, hk⟩ := exists_digits_trial (wanted i) k
  obtain ⟨es, hes, hm⟩ := exists_digits_trial (wanted j) m
  rw [hk, hm] at h
  -- the longer one of the ids would continue the other one
  rcases List.append_eq_append_iff.1 h with ⟨more, hlong, rfl⟩ | ⟨more, hlong, rfl⟩
  · exact (eq_of_eq_append (hapart j i) hlong fun s hs =>
      hds s (List.mem_append_left _ hs)).symm
  · exact eq_of_eq_append (hapart i j) hlong fun s hs => hes s (List.mem_append_left _ hs)

/-- Where no wanted id continues another one, the places that want an id are numbered in their
order. -/
theorem NumbersInTurn.eq_trial_rank (h : NumbersInTurn wanted given)
    (hapart : ∀ i j, ¬ Continues (wanted i) (wanted j)) (i : Fin n) :
    given i = trial (wanted i) (rank wanted i) := by
  induction i using WellFoundedLT.induction with
  | ind i ih =>
    -- the trials that are taken are those up to the number of places before that want the same
    have htaken : ∀ m, 1 ≤ m → (trial (wanted i) m ∈ earlier given i ↔ m < rank wanted i) := by
      intro m hm
      rw [rank, Nat.lt_succ_iff]
      constructor
      · rintro ⟨j, hj, hgiven⟩
        rw [ih j hj] at hgiven
        have hsame := eq_of_trial_eq hapart hgiven
        have hlt := rank_lt_rank (mem_alike.2 ⟨hj, hsame⟩)
        rw [hsame] at hgiven
        rw [← trial_injOn (wanted i) (Nat.le_add_left 1 _) hm hgiven]
        exact Nat.le_of_lt_succ hlt
      · intro hle
        have hmem := Finset.mem_Icc.2 ⟨hm, hle⟩
        rw [← image_rank_alike] at hmem
        obtain ⟨j, hj, rfl⟩ := Finset.mem_image.1 hmem
        obtain ⟨hlt, hsame⟩ := mem_alike.1 hj
        exact ⟨j, hlt, by rw [ih j hlt, hsame]⟩
    obtain ⟨k, -, hends, hgiven⟩ := h.ends i
    obtain ⟨hk, hpassed, hnew⟩ := endsAt_iff.1 hends
    rw [htaken k hk, Nat.not_lt] at hnew
    have hrank : k = rank wanted i := by
      by_contra hne
      have hlt : rank wanted i < k := by omega
      have hown := (htaken _ (Nat.le_add_left 1 _)).1 (hpassed _ (Nat.le_add_left 1 _) hlt)
      exact Nat.lt_irrefl _ hown
    rw [hgiven, hrank]

end Places

/-! ### Assigned ids -/

/-- **Which ids are numbered.** A candidate that alone wants its id loses it exactly if an earlier
one was given that id with a number behind another one. So all such candidates have their ids
exactly if none of these was given to a candidate whose id is wanted several times. This is so where
no number makes such an id: only ids that several candidates want are numbered then. And where no
wanted id is another one with digits behind it, the candidates that want an id get it in their
order, the first as it is and the others with the numbers 2, 3 and so on. -/
theorem numbered_ids (candidates : List Candidate) :
    (∀ i, IsSole (wantedAt candidates) i →
      (givenAt candidates i ≠ wantedAt candidates i ↔
        ∃ j < i, wantedAt candidates j ≠ wantedAt candidates i ∧
          ∃ k, 2 ≤ k ∧ givenAt candidates j = numbered (wantedAt candidates j) k ∧
            numbered (wantedAt candidates j) k = wantedAt candidates i)) ∧
    ((∀ i, IsSole (wantedAt candidates) i → givenAt candidates i = wantedAt candidates i) ↔
      ∀ i j, IsSole (wantedAt candidates) i → ¬ IsSole (wantedAt candidates) j →
        givenAt candidates j ≠ wantedAt candidates i) ∧
    ((∀ i, ¬ IsImitated (wantedAt candidates) i) →
      ∀ i, givenAt candidates i ≠ wantedAt candidates i →
        ∃ j, j ≠ i ∧ wantedAt candidates j = wantedAt candidates i) ∧
    ((∀ i j, ¬ Continues (wantedAt candidates i) (wantedAt candidates j)) →
      ∀ i, givenAt candidates i =
        trial (wantedAt candidates i) (rank (wantedAt candidates) i)) := by
  have h := numbersInTurn_givenAt candidates
  exact ⟨fun i hi => h.ne_iff_of_isSole hi, h.forall_eq_iff, fun hfree i => h.exists_of_ne hfree,
    h.eq_trial_rank⟩

/-- Candidates of which some want one id, be it their canonical one or a variant. -/
def repeatedCandidates : List Candidate :=
  [⟨"find", none⟩, ⟨"find", some "findPet"⟩, ⟨"findPet", none⟩, ⟨"count", none⟩, ⟨"find", some []⟩]

theorem numbered_repeatedCandidates :
    (∀ i j, ¬ Continues (wantedAt repeatedCandidates i) (wantedAt repeatedCandidates j)) ∧
    (∀ i, ¬ IsImitated (wantedAt repeatedCandidates) i) ∧
    (∀ i, givenAt repeatedCandidates i ≠ wantedAt repeatedCandidates i →
      ∃ j, j ≠ i ∧ wantedAt repeatedCandidates j = wantedAt repeatedCandidates i) ∧
    ∀ i, givenAt repeatedCandidates i =
      trial (wantedAt repeatedCandidates i) (rank (wantedAt repeatedCandidates) i) := by
  have hapart : ∀ i j,
      ¬ Continues (wantedAt repeatedCandidates i) (wantedAt repeatedCandidates j) := by
    decide
  obtain ⟨-, -, honly, hranked⟩ := numbered_ids repeatedCandidates
  exact ⟨hapart, not_isImitated hapart, honly (not_isImitated hapart), hranked hapart⟩

/-- Candidates of which the last one wants what the second one is given. -/
def imitatedCandidates : List Candidate := [⟨"find", none⟩, ⟨"find", none⟩, ⟨"find2", none⟩]

/-- The id of a candidate is numbered though no other candidate wants it. -/
theorem find2_is_numbered : ∃ i, IsSole (wantedAt imitatedCandidates) i ∧
    wantedAt imitatedCandidates i = "find2" ∧ givenAt imitatedCandidates i = "find22" :=
  ⟨⟨2, by decide⟩, by decide, by decide, by decide⟩

end NodeForge
