import NodeForge.Proofs.Document.Runs
import NodeForge.Proofs.Document.Sameness
import NodeForge.Proofs.Text.Order

/-!
# The order of keys

Scalars have an order within their kind: texts by the codes of their signs, bytes by their values,
numbers by their places, dates and moments by the calendar. There any two of them can be compared,
and the order is transitive (`atMost_total`, `atMost_trans`), so the entries of a mapping with keys
of one kind come in the order of their keys when they are sorted (`pairwise_sorted`). A number that
has no place is left out of this; with one among the keys, sorting only moves the entries
(`sorted_perm`).
-/

namespace NodeForge

/-! ### Sorting what can be compared -/

/-- Sorting needs an order among the members of the row only. -/
theorem pairwise_mergeSort_of_mem {α : Type} {le : α → α → Bool} {row : List α}
    (htrans : ∀ a ∈ row, ∀ b ∈ row, ∀ c ∈ row, le a b = true → le b c = true → le a c = true)
    (htotal : ∀ a ∈ row, ∀ b ∈ row, (le a b || le b a) = true) :
    (row.mergeSort le).Pairwise fun a b => le a b = true := by
  let leOn (a b : { a // a ∈ row }) : Bool := le a.1 b.1
  have hsorted : (row.attach.mergeSort leOn).Pairwise fun a b => leOn a b = true := by
    refine List.pairwise_mergeSort (fun a b c => ?_) (fun a b => ?_) row.attach
    · exact htrans a.1 a.2 b.1 b.2 c.1 c.2
    · exact htotal a.1 a.2 b.1 b.2
  have hmap : (row.attach.mergeSort leOn).map Subtype.val = row.mergeSort le := by
    rw [List.map_mergeSort (s := le) (fun a _ b _ => rfl), List.attach_map_subtype_val]
  rw [← hmap, List.pairwise_map]
  exact hsorted

namespace Scalar

/-! ### Bytes -/

theorem bytesAtMost_iff {xs ys : List UInt8} :
    bytesAtMost xs ys = true ↔ ¬ ys.map UInt8.toNat < xs.map UInt8.toNat := by
  induction xs generalizing ys with
  | nil => simp [bytesAtMost]
  | cons x xs ih =>
    cases ys with
    | nil => simp [bytesAtMost]
    | cons y ys =>
      rw [bytesAtMost, Bool.or_eq_true, Bool.and_eq_true, decide_eq_true_eq, beq_iff_eq, ih,
        List.map_cons, List.map_cons, List.cons_lt_cons_iff, ← UInt8.toNat_inj]
      constructor
      · rintro (hlt | ⟨heq, hrest⟩) (hgt | ⟨heq', hgt⟩)
        · omega
        · omega
        · omega
        · exact hrest hgt
      · intro h
        rcases Nat.lt_trichotomy x.toNat y.toNat with hlt | heq | hgt
        · exact Or.inl hlt
        · exact Or.inr ⟨heq, fun hrest => h (Or.inr ⟨heq.symm, hrest⟩)⟩
        · exact absurd (Or.inl hgt) h

/-! ### Places -/

theorem Place.atMost_total {p q : Place} : (p.atMost q || q.atMost p) = true := by
  cases p <;> cases q <;> simp [Place.atMost]
  exact Int.le_total _ _

/-- Whether a place is one where something lies. -/
def Place.IsSomewhere : Place → Prop
  | .nowhere _ => False
  | _ => True

theorem Place.atMost_trans {p q r : Place} (hp : p.IsSound) (hq : q.IsSound) (hr : r.IsSound)
    (hsomewhere : q.IsSomewhere) (hpq : p.atMost q = true) (hqr : q.atMost r = true) :
    p.atMost r = true := by
  cases p <;> cases q <;> cases r <;> simp_all [Place.atMost, Place.IsSomewhere]
  case «at».«at».«at» n d m e k f =>
    have he : 0 < (e : Int) := by
      have hpositive : 0 < e := hq
      omega
    refine Int.le_of_mul_le_mul_right ?_ he
    calc n * f * e = n * e * f := by ring
      _ ≤ m * d * f := Int.mul_le_mul_of_nonneg_right hpq (Int.natCast_nonneg f)
      _ = m * f * d := by ring
      _ ≤ k * e * d := Int.mul_le_mul_of_nonneg_right hqr (Int.natCast_nonneg d)
      _ = k * d * e := by ring

/-! ### Scalars of one kind -/

/-- The place of a number is not that of one without a place. -/
theorem isSomewhere_of_place? {s : Scalar} {p : Place} (h : s.place? = some p)
    (hsomewhere : s.isNowhere = false) : p.IsSomewhere := by
  cases p with
  | nowhere which => simp [isNowhere, h] at hsomewhere
  | _ => trivial

theorem atMost_eq_of_place? {a b : Scalar} {p q : Place} (ha : a.place? = some p)
    (hb : b.place? = some q) : a.atMost b = p.atMost q := by
  cases a <;> simp only [place?, reduceCtorEq] at ha <;> cases b <;>
    simp_all [atMost, place?]

/-- What the scalars of a kind are. -/
def IsOfKind : OrderKind → Scalar → Prop
  | .number, s => ∃ p, s.place? = some p
  | .text, s => ∃ t, s = .str t
  | .bytes, s => ∃ b, s = .bytes b
  | .date, s => ∃ d, s = .date d
  | .localTime, s | .worldTime, s => ∃ m, s = .moment m

theorem isOfKind_of_orderKind? {s : Scalar} {kind : OrderKind} (h : s.orderKind? = some kind) :
    IsOfKind kind s := by
  cases s with
  | moment m =>
    rw [orderKind?, Option.some.injEq] at h
    rw [← h]
    split <;> exact ⟨m, rfl⟩
  | null => exact absurd h.symm (Option.some_ne_none kind)
  | _ =>
    cases h
    exact ⟨_, rfl⟩

/-- Of two or more scalars that can be put in order, all are of one kind. -/
theorem exists_kind_of_sortable {a b : Scalar} {rest : List Scalar}
    (h : sortable (a :: b :: rest) = true) :
    ∃ kind, ∀ s ∈ a :: b :: rest, s.orderKind? = some kind := by
  have h : a.orderKind?.isSome = true ∧ (b :: rest).all (·.orderKind? == a.orderKind?) = true := by
    simpa only [sortable, Bool.and_eq_true] using h
  obtain ⟨kind, hkind⟩ := Option.isSome_iff_exists.mp h.1
  refine ⟨kind, fun s hs => ?_⟩
  rcases List.mem_cons.mp hs with rfl | hs
  · exact hkind
  · exact (beq_iff_eq.mp (List.all_eq_true.mp h.2 s hs)).trans hkind

variable {a b c : Scalar} {kind : OrderKind}

theorem atMost_total (ha : a.orderKind? = some kind) (hb : b.orderKind? = some kind) :
    (a.atMost b || b.atMost a) = true := by
  have ha := isOfKind_of_orderKind? ha
  have hb := isOfKind_of_orderKind? hb
  cases kind with
  | number =>
    obtain ⟨p, hp⟩ := ha
    obtain ⟨q, hq⟩ := hb
    rw [atMost_eq_of_place? hp hq, atMost_eq_of_place? hq hp]
    exact Place.atMost_total
  | text =>
    obtain ⟨s, rfl⟩ := ha
    obtain ⟨t, rfl⟩ := hb
    exact Text.atMost_total s t
  | bytes =>
    obtain ⟨x, rfl⟩ := ha
    obtain ⟨y, rfl⟩ := hb
    show (bytesAtMost x y || bytesAtMost y x) = true
    rw [Bool.or_eq_true, bytesAtMost_iff, bytesAtMost_iff, not_lt, not_lt]
    exact le_total _ _
  | date =>
    obtain ⟨x, rfl⟩ := ha
    obtain ⟨y, rfl⟩ := hb
    show (decide (x.dayNumber ≤ y.dayNumber) || decide (y.dayNumber ≤ x.dayNumber)) = true
    rw [Bool.or_eq_true, decide_eq_true_eq, decide_eq_true_eq]
    exact Nat.le_total _ _
  | localTime | worldTime =>
    obtain ⟨x, rfl⟩ := ha
    obtain ⟨y, rfl⟩ := hb
    show (decide (x.instant ≤ y.instant) || decide (y.instant ≤ x.instant)) = true
    rw [Bool.or_eq_true, decide_eq_true_eq, decide_eq_true_eq]
    exact Int.le_total _ _

theorem atMost_trans (ha : a.orderKind? = some kind) (hb : b.orderKind? = some kind)
    (hc : c.orderKind? = some kind) (hsomewhere : b.isNowhere = false)
    (hab : a.atMost b = true) (hbc : b.atMost c = true) : a.atMost c = true := by
  have ha := isOfKind_of_orderKind? ha
  have hb := isOfKind_of_orderKind? hb
  have hc := isOfKind_of_orderKind? hc
  cases kind with
  | number =>
    obtain ⟨p, hp⟩ := ha
    obtain ⟨q, hq⟩ := hb
    obtain ⟨r, hr⟩ := hc
    rw [atMost_eq_of_place? hp hq] at hab
    rw [atMost_eq_of_place? hq hr] at hbc
    rw [atMost_eq_of_place? hp hr]
    exact Place.atMost_trans (isSound_of_place? hp) (isSound_of_place? hq)
      (isSound_of_place? hr) (isSomewhere_of_place? hq hsomewhere) hab hbc
  | text =>
    obtain ⟨s, rfl⟩ := ha
    obtain ⟨t, rfl⟩ := hb
    obtain ⟨u, rfl⟩ := hc
    exact Text.atMost_trans (b := t) hab hbc
  | bytes =>
    obtain ⟨x, rfl⟩ := ha
    obtain ⟨y, rfl⟩ := hb
    obtain ⟨z, rfl⟩ := hc
    change bytesAtMost x y = true at hab
    change bytesAtMost y z = true at hbc
    show bytesAtMost x z = true
    rw [bytesAtMost_iff, not_lt] at hab hbc ⊢
    exact hab.trans hbc
  | date =>
    obtain ⟨x, rfl⟩ := ha
    obtain ⟨y, rfl⟩ := hb
    obtain ⟨z, rfl⟩ := hc
    have hxy : x.dayNumber ≤ y.dayNumber := of_decide_eq_true hab
    have hyz : y.dayNumber ≤ z.dayNumber := of_decide_eq_true hbc
    exact decide_eq_true (hxy.trans hyz)
  | localTime | worldTime =>
    obtain ⟨x, rfl⟩ := ha
    obtain ⟨y, rfl⟩ := hb
    obtain ⟨z, rfl⟩ := hc
    have hxy : x.instant ≤ y.instant := of_decide_eq_true hab
    have hyz : y.instant ≤ z.instant := of_decide_eq_true hbc
    exact decide_eq_true (hxy.trans hyz)

end Scalar

/-! ### Entries -/

namespace Fields

/-- Sorting moves the entries of a mapping to other places. -/
theorem sorted_perm (fields : Fields) : (sorted fields).Perm fields := by
  rw [sorted]
  split
  · exact Runs.sort_perm _ fields
  · exact List.mergeSort_perm fields _

/-- **Keys in order.** The keys of a sorted mapping are in order, if they can be ordered and none of
them is a number without a place. -/
theorem pairwise_sorted {fields : Fields}
    (hsortable : Scalar.sortable (Entries.keys fields) = true)
    (hsomewhere : ∀ e ∈ fields, e.1.isNowhere = false) :
    (sorted fields).Pairwise fun a b => a.1.atMost b.1 = true := by
  have hplaces : (fields.any fun e => e.1.isNowhere) = false := by
    rw [List.any_eq_false]
    intro e he
    rw [hsomewhere e he]
    exact Bool.false_ne_true
  rw [sorted, hplaces, if_neg Bool.false_ne_true]
  match fields with
  | [] => simp
  | [e] => simp
  | e :: e' :: rest =>
    obtain ⟨kind, hkind⟩ := Scalar.exists_kind_of_sortable hsortable
    have hall : ∀ x ∈ e :: e' :: rest, x.1.orderKind? = some kind :=
      fun x hx => hkind x.1 (List.mem_map_of_mem hx)
    refine pairwise_mergeSort_of_mem (fun a ha b hb c hc => ?_) (fun a ha b hb => ?_)
    · exact Scalar.atMost_trans (hall a ha) (hall b hb) (hall c hc) (hsomewhere b hb)
    · exact Scalar.atMost_total (hall a ha) (hall b hb)

end Fields

end NodeForge
