import Mathlib.Tactic.Ring
import NodeForge.OpenApi.Parameters

/-!
# Sameness of keys

Keys are compared by `Scalar.same`, which takes numbers by their value: `1`, `1.0` and `true` are
one key. So the comparison is no equality, but it is an equivalence (`Scalar.instEquivBEq`), and
that is all that ordered entries need. On texts it is equality (`Scalar.str_beq_iff`).

A number lies at a fraction with a denominator above zero. This is what makes equal cross products
a transitive relation.
-/

namespace NodeForge

namespace Scalar

/-! ### Places -/

/-- Whether a place is one that a number can have: a fraction has a denominator. -/
def Place.IsSound : Place → Prop
  | .at _ den => 0 < den
  | _ => True

theorem isSound_of_place? {s : Scalar} {p : Place} (h : s.place? = some p) : p.IsSound := by
  have htwo (n : Nat) : 0 < Binary64.twoPow n := Nat.pow_pos (by decide)
  cases s with
  | bool b | int i | noNumber which =>
    rw [place?, Option.some.injEq] at h
    rw [← h]
    simp [Place.IsSound]
  | float x =>
    rw [place?, Option.some.injEq] at h
    rw [← h]
    cases Binary64.decode x with
    | nan => trivial
    | infinite negative => cases negative <;> trivial
    | finite negative m q lowest =>
      dsimp only
      split
      · exact Nat.one_pos
      · exact htwo _
  | _ => simp [place?] at h

theorem Place.same_self (p : Place) : p.same p = true := by
  cases p <;> simp [Place.same]

theorem Place.same_symm {p q : Place} (h : p.same q = true) : q.same p = true := by
  cases p <;> cases q <;> simp_all [Place.same]

theorem Place.same_trans {p q r : Place} (hq : q.IsSound) (hpq : p.same q = true)
    (hqr : q.same r = true) : p.same r = true := by
  cases p <;> cases q <;> cases r <;> simp_all [Place.same]
  case «at».«at».«at» n d m e k f =>
    have he : (e : Int) ≠ 0 := by
      have : 0 < e := hq
      omega
    apply mul_right_cancel₀ he
    calc n * f * e = n * e * f := by ring
      _ = m * f * d := by rw [hpq]; ring
      _ = k * d * e := by rw [hqr]; ring

/-! ### Scalars -/

/-- A number is compared by its place. -/
theorem same_of_place? {a b : Scalar} {p : Place} (h : a.place? = some p) :
    a.same b = (b.place?.map p.same).getD false := by
  cases a <;> simp only [place?, reduceCtorEq] at h <;> cases b <;>
    simp_all [same, place?]

theorem null_same_iff {k : Scalar} : Scalar.null.same k = true ↔ k = .null := by
  cases k <;> simp [same, place?]

theorem str_same_iff {s : Text} {k : Scalar} : (Scalar.str s).same k = true ↔ k = .str s := by
  cases k <;> simp [same, place?]
  exact eq_comm

theorem bytes_same_iff {b : List UInt8} {k : Scalar} :
    (Scalar.bytes b).same k = true ↔ k = .bytes b := by
  cases k <;> simp [same, place?]
  exact eq_comm

theorem date_same_iff {d : Date} {k : Scalar} : (Scalar.date d).same k = true ↔ k = .date d := by
  cases k <;> simp [same, place?]
  exact eq_comm

theorem moment_same_iff {m : Moment} {k : Scalar} :
    (Scalar.moment m).same k = true ↔
      ∃ n, k = .moment n ∧ m.offset.isSome = n.offset.isSome ∧ m.instant = n.instant := by
  cases k <;> simp [same, place?]

theorem same_self (a : Scalar) : a.same a = true := by
  cases a with
  | null => exact null_same_iff.2 rfl
  | str s => exact str_same_iff.2 rfl
  | bytes b => exact bytes_same_iff.2 rfl
  | date d => exact date_same_iff.2 rfl
  | moment m => exact moment_same_iff.2 ⟨m, rfl, rfl, rfl⟩
  | _ =>
    rw [same_of_place? rfl]
    simp only [place?, Option.map_some, Option.getD_some, Place.same_self]

theorem same_symm {a b : Scalar} (h : a.same b = true) : b.same a = true := by
  cases a with
  | null => rw [null_same_iff.1 h, null_same_iff]
  | str s => rw [str_same_iff.1 h, str_same_iff]
  | bytes s => rw [bytes_same_iff.1 h, bytes_same_iff]
  | date d => rw [date_same_iff.1 h, date_same_iff]
  | moment m =>
    obtain ⟨n, rfl, hoffset, hinstant⟩ := moment_same_iff.1 h
    exact moment_same_iff.2 ⟨m, rfl, hoffset.symm, hinstant.symm⟩
  | _ =>
    rw [same_of_place? rfl] at h
    cases hb : b.place? with
    | none => simp [hb] at h
    | some q =>
      rw [hb] at h
      rw [same_of_place? hb]
      exact Place.same_symm h

theorem same_trans {a b c : Scalar} (hab : a.same b = true) (hbc : b.same c = true) :
    a.same c = true := by
  cases a with
  | null => rwa [null_same_iff.1 hab] at hbc
  | str s => rwa [str_same_iff.1 hab] at hbc
  | bytes s => rwa [bytes_same_iff.1 hab] at hbc
  | date d => rwa [date_same_iff.1 hab] at hbc
  | moment m =>
    obtain ⟨n, rfl, hoffset, hinstant⟩ := moment_same_iff.1 hab
    obtain ⟨k, rfl, hoffset', hinstant'⟩ := moment_same_iff.1 hbc
    exact moment_same_iff.2 ⟨k, rfl, hoffset.trans hoffset', hinstant.trans hinstant'⟩
  | _ =>
    rw [same_of_place? rfl] at hab ⊢
    cases hb : b.place? with
    | none => simp [hb] at hab
    | some q =>
      rw [same_of_place? hb] at hbc
      cases hc : c.place? with
      | none => simp [hc] at hbc
      | some r =>
        rw [hb] at hab
        rw [hc] at hbc
        exact Place.same_trans (isSound_of_place? hb) hab hbc

instance : EquivBEq Scalar where
  rfl := same_self _
  symm := same_symm
  trans := same_trans

/-- A key is the same as a text only if it is this text. -/
theorem str_beq_iff {s : Text} {k : Scalar} : (Scalar.str s == k) = true ↔ k = .str s :=
  str_same_iff

theorem beq_str_iff {s : Text} {k : Scalar} : (k == Scalar.str s) = true ↔ k = .str s := by
  rw [BEq.comm, str_beq_iff]

end Scalar

/-! ### Keys of declarations -/

namespace OpenApi

instance : EquivBEq KeyPart where
  rfl {a} := by
    show a.same a = true
    cases a <;> simp [KeyPart.same]
  symm {a b} h := by
    change a.same b = true at h
    show b.same a = true
    cases a <;> cases b <;> simp_all [KeyPart.same, BEq.comm]
  trans {a b c} hab hbc := by
    change a.same b = true at hab
    change b.same c = true at hbc
    show a.same c = true
    cases a <;> cases b <;> cases c <;> simp_all [KeyPart.same]
    case one.one.one x y z => exact BEq.trans hab hbc
    case two.two.two => exact ⟨BEq.trans hab.1 hbc.1, BEq.trans hab.2 hbc.2⟩

theorem declarationKey_beq_iff {a b : DeclarationKey} :
    (a == b) = true ↔ (a.1 == b.1) = true ∧ (a.2 == b.2) = true := by
  show (a.1 == b.1 && a.2 == b.2) = true ↔ _
  rw [Bool.and_eq_true]

instance : EquivBEq DeclarationKey where
  rfl := declarationKey_beq_iff.2 ⟨BEq.refl _, BEq.refl _⟩
  symm h := by
    rw [declarationKey_beq_iff] at h ⊢
    exact ⟨BEq.symm h.1, BEq.symm h.2⟩
  trans hab hbc := by
    rw [declarationKey_beq_iff] at hab hbc ⊢
    exact ⟨BEq.trans hab.1 hbc.1, BEq.trans hab.2 hbc.2⟩

end OpenApi

end NodeForge
