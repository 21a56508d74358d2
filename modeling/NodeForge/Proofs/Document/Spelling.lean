import NodeForge.Document.Value
import NodeForge.Proofs.Text.Rows

/-!
# How the spelling of a value begins

A text stands in running text as it is, every other value as it is shown: a number begins with a
digit, a sign or the name of a number without digits, the truth values and null with capital
letters, bytes with their mark, a container with its bracket. A text that begins otherwise is
therefore the spelling of no other value than of itself (`Value.eq_str_of_text`).
-/

namespace NodeForge

/-- The characters with which the spelling of a value that is no text can begin. -/
def isOpening (c : Char) : Bool := c.isDigit || "NTF-nibs[(\x7b".toList.contains c

/-- Whether a text begins like the spelling of a value that is no text. -/
def Opens (text : Text) : Prop := Text.firstMeets isOpening text = true

instance (text : Text) : Decidable (Opens text) :=
  inferInstanceAs (Decidable (Text.firstMeets isOpening text = true))

section Rows

variable {front text : Text}

theorem opens_cons {s : Sign} (h : s.meets isOpening = true) (rest : Text) : Opens (s :: rest) := h

theorem Opens.append (h : Opens front) (rest : Text) : Opens (front ++ rest) := by
  cases front with
  | nil => cases h
  | cons s cs => exact h

/-- What is left of a text at its front begins as the text does. -/
theorem Opens.of_front (h : Opens text) (hfront : front <+: text) (hne : front ≠ []) :
    Opens front := by
  obtain ⟨rest, rfl⟩ := hfront
  cases front with
  | nil => exact absurd rfl hne
  | cons s cs => exact h

end Rows

/-! ### Numbers -/

namespace Numeral

theorem ofNat_eq_map (n : Nat) : ofNat n = (Nat.toDigits 10 n).map Sign.char := by
  rw [← Nat.toList_repr]
  rfl

theorem ofNat_ne_nil (n : Nat) : ofNat n ≠ [] := by
  rw [ofNat_eq_map, Ne, List.map_eq_nil_iff]
  exact Nat.toDigits_ne_nil

theorem isDigit_of_mem_ofNat {n : Nat} {s : Sign} (h : s ∈ ofNat n) :
    ∃ c : Char, c.isDigit = true ∧ s = c := by
  rw [ofNat_eq_map] at h
  obtain ⟨c, hc, rfl⟩ := List.mem_map.1 h
  exact ⟨c, Nat.isDigit_of_mem_toDigits (by decide) (by decide) hc, rfl⟩

theorem opens_ofNat (n : Nat) : Opens (ofNat n) := by
  obtain ⟨s, rest, heq⟩ := List.exists_cons_of_ne_nil (ofNat_ne_nil n)
  obtain ⟨c, hdigit, rfl⟩ := isDigit_of_mem_ofNat (heq ▸ List.mem_cons_self : s ∈ ofNat n)
  rw [heq]
  apply opens_cons
  simp [Sign.meets, isOpening, hdigit]

theorem opens_ofInt (i : Int) : Opens (ofInt i) := by
  cases i with
  | ofNat n => exact opens_ofNat n
  | negSucc n => exact (by decide : Opens "-").append _

theorem opens_padded (width n : Nat) : Opens (padded width n) := by
  unfold padded
  dsimp only
  cases width - (ofNat n).length with
  | zero => exact opens_ofNat n
  | succ zeros => exact (opens_cons (by decide) _).append _

theorem prefix_withoutEndZeros (digits : Text) : (withoutEndZeros digits).1 <+: digits :=
  Rows.trimEndWhere_prefix _ _

theorem opens_ofDecimal (d : Shortest.Decimal) : Opens (ofDecimal d) := by
  have hprefix := prefix_withoutEndZeros (ofNat d.coefficient)
  unfold ofDecimal
  cases hkept : withoutEndZeros (ofNat d.coefficient) with
  | mk digits dropped =>
    rw [hkept] at hprefix
    dsimp only at hprefix ⊢
    split
    · decide
    · next hne =>
      have hdigits : digits ≠ [] := by simpa using hne
      have htake : ∀ n, 0 < n → Opens (digits.take n) := by
        intro n hn
        have hsome : digits.take n ≠ [] := by
          rw [ne_eq, List.take_eq_nil_iff, not_or]
          exact ⟨by omega, hdigits⟩
        exact (opens_ofNat d.coefficient).of_front ((List.take_prefix _ _).trans hprefix) hsome
      split
      · rw [List.append_assoc]
        exact (htake 1 Nat.one_pos).append _
      · split
        · rw [List.append_assoc]
          exact (by decide : Opens "0.").append _
        · simp only [List.append_assoc]
          exact (htake _ (by omega)).append _

theorem opens_ofFloat (x : Float) : Opens (ofFloat Scalar.specialNames x) := by
  unfold ofFloat
  split
  · decide
  · next negative _ => cases negative <;> decide
  · next negative m q lowest _ =>
    cases negative with
    | true => exact (by decide : Opens "-").append _
    | false => exact opens_ofDecimal _

end Numeral

/-! ### Values -/

theorem Date.opens_text (d : Date) : Opens d.text := by
  unfold Date.text
  simp only [List.append_assoc]
  exact (Numeral.opens_padded 4 d.year).append _

theorem Moment.opens_text (m : Moment) : Opens m.text := by
  unfold Moment.text
  simp only [List.append_assoc]
  exact m.date.opens_text.append _

theorem Scalar.opens_text {s : Scalar} (h : ∀ t, s ≠ .str t) : Opens s.text := by
  cases s with
  | null => decide
  | bool b => cases b <;> decide
  | int i => exact Numeral.opens_ofInt i
  | float x => exact Numeral.opens_ofFloat x
  | noNumber which => exact (by decide : Opens "nan")
  | str t => exact absurd rfl (h t)
  | bytes b => exact opens_cons (s := .char 'b') (by decide) _
  | date d => exact d.opens_text
  | moment m => exact m.opens_text

theorem Value.opens_text {v : Value} (h : ∀ t, v ≠ .str t) : Opens v.text := by
  cases v with
  | scalar s => exact Scalar.opens_text fun t heq => h t (by rw [heq])
  | list xs =>
    show Opens (quoted (.list xs))
    rw [quoted, List.append_assoc]
    exact (by decide : Opens "[").append _
  | pair a b =>
    show Opens (quoted (.pair a b))
    rw [quoted]
    simp only [List.append_assoc]
    exact (by decide : Opens "(").append _
  | map es =>
    show Opens (quoted (.map es))
    rw [quoted, List.append_assoc]
    exact (by decide : Opens "\x7b").append _
  | set members =>
    cases members with
    | nil => exact (by decide : Opens "set()")
    | cons m ms =>
      show Opens (quoted (.set (m :: ms)))
      rw [quoted, List.append_assoc]
      exact (by decide : Opens "\x7b").append _
  | again shape outward => cases shape <;> exact opens_cons (by decide) _

/-- A value whose spelling does not begin like that of another value is a text. -/
theorem Value.eq_str_of_text {v : Value} {t : Text} (h : v.text = t) (ht : ¬ Opens t) :
    v = .str t := by
  by_cases htext : ∃ own, v = .str own
  · obtain ⟨own, rfl⟩ := htext
    exact congrArg Value.str h
  · rw [← h] at ht
    exact absurd (opens_text (not_exists.1 htext)) ht

end NodeForge
