import Mathlib.Data.List.Lex
import NodeForge.Text.Sign

/-!
# The order of texts

Texts are ordered by the codes of their signs, as in a dictionary. `Text.Precedes` says this through
the order of rows of numbers, and `Text.atMost_iff` says that `Text.atMost` decides it. Sorting by
different texts gives a strictly increasing row (`pairwise_mergeSort_of_nodup`).
-/

namespace NodeForge.Text

/-- Whether a text comes before another one, by the codes of their signs. -/
def Precedes (a b : Text) : Prop := a.map Sign.code < b.map Sign.code

instance (a b : Text) : Decidable (Precedes a b) :=
  inferInstanceAs (Decidable (a.map Sign.code < b.map Sign.code))

theorem Precedes.trans {a b c : Text} (hab : a.Precedes b) (hbc : b.Precedes c) : a.Precedes c :=
  List.lt_trans hab hbc

theorem Precedes.ne {a b : Text} (h : a.Precedes b) : a ≠ b := by
  rintro rfl
  exact List.lt_irrefl _ h

theorem code_injective : Function.Injective Sign.code := by
  intro s t h
  rw [← Sign.ofCode_code s, h, Sign.ofCode_code]

theorem atMost_iff {a b : Text} : atMost a b = true ↔ a = b ∨ a.Precedes b := by
  unfold Precedes
  induction a generalizing b with
  | nil => cases b <;> simp [atMost]
  | cons s as ih =>
    cases b with
    | nil => simp [atMost]
    | cons t bs =>
      rw [atMost, Bool.or_eq_true, Bool.and_eq_true, decide_eq_true_eq, beq_iff_eq, ih,
        List.map_cons, List.map_cons, List.cons_lt_cons_iff, List.cons.injEq,
        code_injective.eq_iff]
      constructor
      · rintro (h | ⟨rfl, rfl | h⟩)
        · exact Or.inr (Or.inl h)
        · exact Or.inl ⟨rfl, rfl⟩
        · exact Or.inr (Or.inr ⟨rfl, h⟩)
      · rintro (⟨rfl, rfl⟩ | h | ⟨rfl, h⟩)
        · exact Or.inr ⟨rfl, Or.inl rfl⟩
        · exact Or.inl h
        · exact Or.inr ⟨rfl, Or.inr h⟩

theorem atMost_trans {a b c : Text} (hab : atMost a b = true) (hbc : atMost b c = true) :
    atMost a c = true := by
  rw [atMost_iff] at hab hbc ⊢
  rcases hab with rfl | hab
  · exact hbc
  · rcases hbc with rfl | hbc
    · exact Or.inr hab
    · exact Or.inr (hab.trans hbc)

theorem atMost_total (a b : Text) : (atMost a b || atMost b a) = true := by
  rw [Bool.or_eq_true]
  induction a generalizing b with
  | nil => exact Or.inl rfl
  | cons s as ih =>
    cases b with
    | nil => exact Or.inr rfl
    | cons t bs =>
      simp only [atMost, Bool.or_eq_true, Bool.and_eq_true, decide_eq_true_eq, beq_iff_eq]
      rcases Nat.lt_trichotomy s.code t.code with h | h | h
      · exact Or.inl (Or.inl h)
      · rcases ih bs with hle | hle
        · exact Or.inl (Or.inr ⟨h, hle⟩)
        · exact Or.inr (Or.inr ⟨h.symm, hle⟩)
      · exact Or.inr (Or.inl h)

/-- Sorted by texts, a row never decreases. -/
theorem pairwise_mergeSort {α : Type} {f : α → Text} (row : List α) :
    (row.mergeSort fun a b => atMost (f a) (f b)).Pairwise fun a b =>
      atMost (f a) (f b) = true := by
  refine List.pairwise_mergeSort ?_ (fun a b => atMost_total (f a) (f b)) row
  intro a b c hab hbc
  exact atMost_trans hab hbc

/-- Sorting by texts keeps the order of members with one text. -/
theorem filter_mergeSort {α : Type} {f : α → Text} (row : List α) (text : Text) :
    ((row.mergeSort fun a b => atMost (f a) (f b)).filter fun a => f a == text) =
      row.filter fun a => f a == text := by
  let le (a b : α) : Bool := atMost (f a) (f b)
  have hpairwise : (row.filter fun a => f a == text).Pairwise fun a b => le a b = true := by
    refine List.pairwise_of_forall_mem_list fun a ha b hb => ?_
    have hab : f a = f b := (beq_iff_eq.1 (List.mem_filter.1 ha).2).trans
      (beq_iff_eq.1 (List.mem_filter.1 hb).2).symm
    exact atMost_iff.2 (Or.inl hab)
  have htrans : ∀ a b c, le a b = true → le b c = true → le a c = true :=
    fun a b c hab hbc => atMost_trans hab hbc
  have hsublist : (row.filter fun a => f a == text).Sublist (row.mergeSort le) :=
    List.sublist_mergeSort htrans (fun a b => atMost_total (f a) (f b)) hpairwise
      List.filter_sublist
  have hfiltered := hsublist.filter fun a => f a == text
  rw [List.filter_filter] at hfiltered
  simp only [Bool.and_self] at hfiltered
  have hlength := ((List.mergeSort_perm row le).filter fun a => f a == text).length_eq
  exact (hfiltered.eq_of_length hlength.symm).symm

/-- Sorted by texts that are all different, a row increases strictly. -/
theorem pairwise_mergeSort_of_nodup {α : Type} {f : α → Text} {row : List α}
    (h : (row.map f).Nodup) :
    (row.mergeSort fun a b => atMost (f a) (f b)).Pairwise fun a b => (f a).Precedes (f b) := by
  have hperm := List.mergeSort_perm row fun a b => atMost (f a) (f b)
  have hle := pairwise_mergeSort (f := f) row
  have hne := List.pairwise_map.1 ((hperm.map f).nodup_iff.2 h)
  refine (hle.and hne).imp fun {a b} hab => ?_
  rcases atMost_iff.1 hab.1 with heq | hlt
  · exact absurd heq hab.2
  · exact hlt

/-- Sorting by different texts forgets the order that was there before. -/
theorem mergeSort_eq_of_perm {α : Type} {f : α → Text} {row row' : List α} (h : row.Perm row')
    (hnodup : (row.map f).Nodup) :
    (row.mergeSort fun a b => atMost (f a) (f b)) =
      row'.mergeSort fun a b => atMost (f a) (f b) := by
  let le (a b : α) : Bool := atMost (f a) (f b)
  have hsorted := pairwise_mergeSort_of_nodup hnodup
  have hsorted' := pairwise_mergeSort_of_nodup ((h.map f).nodup_iff.1 hnodup)
  have hperm : (row.mergeSort le).Perm (row'.mergeSort le) :=
    ((List.mergeSort_perm row le).trans h).trans (List.mergeSort_perm row' le).symm
  refine hperm.eq_of_pairwise (fun a b _ _ hab hba => ?_) hsorted hsorted'
  exact absurd rfl (hab.trans hba).ne

theorem pairwise_sorted_of_nodup {texts : List Text} (h : texts.Nodup) :
    (sorted texts).Pairwise Precedes := by
  have hid : (texts.map id).Nodup := by rwa [List.map_id]
  exact pairwise_mergeSort_of_nodup hid

end NodeForge.Text
