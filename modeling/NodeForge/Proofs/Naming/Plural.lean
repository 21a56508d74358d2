import Mathlib.Data.List.Sublists
import NodeForge.Naming.Plural
import NodeForge.Proofs.Document.Entries
import NodeForge.Proofs.Naming.Refolding

/-!
# Singulars and their plurals

The singular of a word goes by the endings, and so do the plurals under which a resource is looked
for. The two are stated apart from each other, and nothing in them says that they fit. They do: what
an ending takes away is put back by one of the plurals, with few exceptions, all of which are among
the irregular words or have nothing left but their ending (`isForm_singularOf_iff`). And a word is
never made of several plurals of its own singular (`not_isForm_append`).
-/

namespace NodeForge.Naming

/-! ### Endings -/

section Endings

variable {ending word single : Text} {endings : List Text}

theorem endsWith_iff : Text.endsWith ending word = true ↔ ∃ single, word = single ++ ending := by
  rw [Text.endsWith, List.isSuffixOf_iff_suffix]
  constructor
  · rintro ⟨single, rfl⟩
    exact ⟨single, rfl⟩
  · rintro ⟨single, rfl⟩
    exact ⟨single, rfl⟩

theorem endsInAny_iff : endsInAny endings word = true ↔
    ∃ ending ∈ endings, ∃ single, word = single ++ ending := by
  simp only [endsInAny, List.any_eq_true, endsWith_iff]

theorem shortenedBy_append (count : Nat) (single : Text) (h : ending.length = count) :
    shortenedBy count (single ++ ending) = single := by
  rw [shortenedBy, List.length_append, h, Nat.add_sub_cancel, List.take_left]

/-- Endings that end alike can be told by what stands before. -/
theorem endsInAny_append (endings : List Text) (single ending : Text) :
    endsInAny (endings.map fun e => e ++ ending) (single ++ ending) = endsInAny endings single := by
  rw [Bool.eq_iff_iff, endsInAny_iff, endsInAny_iff]
  simp only [List.mem_map]
  constructor
  · rintro ⟨_, ⟨e, he, rfl⟩, front, h⟩
    rw [← List.append_assoc] at h
    exact ⟨e, he, front, List.append_cancel_right h⟩
  · rintro ⟨e, he, front, rfl⟩
    exact ⟨_, ⟨e, he, rfl⟩, front, List.append_assoc _ _ _⟩

/-- A word with one of several endings that end alike. -/
theorem exists_of_endsInAny (endings : List Text) (ending : Text)
    (h : endsInAny (endings.map fun e => e ++ ending) word = true) :
    ∃ single, word = single ++ ending ∧ endsInAny endings single = true := by
  obtain ⟨_, he, front, hword⟩ := endsInAny_iff.1 h
  obtain ⟨e, -, rfl⟩ := List.mem_map.1 he
  rw [← List.append_assoc] at hword
  refine ⟨front ++ e, hword, ?_⟩
  rwa [hword, endsInAny_append] at h

end Endings

/-- Whether a word ends with a given letter. -/
theorem endsWith_singleton (c d : Sign) (front : Text) :
    Text.endsWith [c] (front ++ [d]) = (c == d) := by
  rw [Bool.eq_iff_iff, endsWith_iff, beq_iff_eq]
  constructor
  · rintro ⟨single, h⟩
    exact (List.singleton_inj.1 (List.append_inj_right' h rfl)).symm
  · rintro rfl
    exact ⟨front, rfl⟩

/-! ### What the singular of a word is -/

/-- The ends of words that have `es` behind them in the plural. -/
def esEnds : List Text := ["ss", "sh", "ch", "x", "zz", "us"]

/-- The ends of words that have no plural with an `s`. -/
def noPluralEnds : List Text := ["s", "u", "i"]

/-- The ways in which one word can be the singular of another one. -/
inductive IsSingular : Text → Text → Prop
  | listed {single word : Text} (h : (word, single) ∈ irregularSingulars) : IsSingular single word
  | ies {stem : Text} (hne : stem ≠ []) : IsSingular (stem ++ "y") (stem ++ "ies")
  | es {single : Text} (h : endsInAny esEnds single = true) : IsSingular single (single ++ "es")
  | s {single : Text} (h : endsInAny noPluralEnds single = false) :
    IsSingular single (single ++ "s")
  | self (word : Text) : IsSingular word word

/-- **Singulars.** What the table and the endings make of a word. -/
theorem isSingular_singularOf (word : Text) : IsSingular (singularOf word) word := by
  unfold singularOf
  split
  · next single h =>
    obtain ⟨own, hmem, hown⟩ := Entries.mem_of_lookup_eq_some h
    obtain rfl := eq_of_beq hown
    exact .listed hmem
  · split
    · next hies =>
      rw [Bool.and_eq_true, endsInAny_iff] at hies
      obtain ⟨⟨ending, hending, stem, rfl⟩, hlength⟩ := hies
      obtain rfl := List.mem_singleton.1 hending
      rw [shortenedBy_append 3 stem rfl]
      refine .ies ?_
      rintro rfl
      exact absurd hlength (by decide)
    · split
      · next hes =>
        obtain ⟨single, rfl, h⟩ := exists_of_endsInAny esEnds "es" hes
        rw [shortenedBy_append 2 single rfl]
        exact .es h
      · split
        · next hses =>
          rw [Bool.and_eq_true, endsInAny_iff] at hses
          obtain ⟨⟨ending, hending, stem, rfl⟩, -⟩ := hses
          obtain rfl := List.mem_singleton.1 hending
          have hword : stem ++ Text.ofString "ses" =
              (stem ++ Text.ofString "se") ++ Text.ofString "s" := by
            rw [List.append_assoc]
            rfl
          have hends (c : Sign) :
              Text.endsWith [c] (stem ++ Text.ofString "se") = (c == .char 'e') := by
            rw [← endsWith_singleton c (.char 'e') (stem ++ Text.ofString "s"), List.append_assoc]
            rfl
          rw [hword, shortenedBy_append 1 _ rfl]
          refine .s ?_
          simp only [endsInAny, noPluralEnds, List.any_cons, List.any_nil, Bool.or_false,
            Bool.or_eq_false_iff]
          exact ⟨hends _, hends _, hends _⟩
        · split
          · next hs =>
            rw [Bool.and_eq_true, Bool.not_eq_true', endsInAny_iff] at hs
            obtain ⟨⟨ending, hending, single, rfl⟩, h⟩ := hs
            obtain rfl := List.mem_singleton.1 hending
            have h : endsInAny (noPluralEnds.map fun e => e ++ Text.ofString "s")
              (single ++ Text.ofString "s") = false := h
            rw [endsInAny_append] at h
            rw [shortenedBy_append 1 single rfl]
            exact .s h
          · exact .self word

/-! ### Forms of a word -/

/-- The forms under which a word is looked for: the word itself and its plurals. -/
inductive IsForm : Text → Text → Prop
  | self {word : Text} (hne : word ≠ []) : IsForm word word
  | s {word : Text} (hne : word ≠ []) : IsForm word (word ++ "s")
  | es {word : Text} (hne : word ≠ []) : IsForm word (word ++ "es")
  | ies {stem : Text} (hne : stem ≠ []) : IsForm (stem ++ "y") (stem ++ "ies")

theorem isForm_iff {word form : Text} : IsForm word form ↔ word ≠ [] ∧
    (form = word ∨ form = word ++ "s" ∨ form = word ++ "es" ∨
      Text.endsWith "y" word = true ∧ 2 ≤ word.length ∧ form = word.dropLast ++ "ies") := by
  constructor
  · rintro (hne | hne | hne | @⟨stem, hne⟩)
    · exact ⟨hne, Or.inl rfl⟩
    · exact ⟨hne, Or.inr (Or.inl rfl)⟩
    · exact ⟨hne, Or.inr (Or.inr (Or.inl rfl))⟩
    · refine ⟨by simp [hne], Or.inr (Or.inr (Or.inr ⟨endsWith_iff.2 ⟨stem, rfl⟩, ?_, ?_⟩))⟩
      · have hlength := List.length_pos_iff.2 hne
        rw [List.length_append]
        exact Nat.succ_le_succ hlength
      · exact congrArg (fun front : Text => front ++ Text.ofString "ies") List.dropLast_concat.symm
  · rintro ⟨hne, rfl | rfl | rfl | ⟨hy, hlength, rfl⟩⟩
    · exact .self hne
    · exact .s hne
    · exact .es hne
    · obtain ⟨stem, rfl⟩ := endsWith_iff.1 hy
      have hdrop : (stem ++ Text.ofString "y").dropLast = stem := List.dropLast_concat
      rw [hdrop]
      refine .ies ?_
      rintro rfl
      exact absurd hlength (by decide)

instance (word form : Text) : Decidable (IsForm word form) := decidable_of_iff _ isForm_iff.symm

theorem IsForm.ne_nil {word form : Text} (h : IsForm word form) : word ≠ [] := (isForm_iff.1 h).1

/-- The words whose singular has other plurals, and the one that has no singular. -/
def withoutForm : List Text := ["people", "children", "men", "women", "s"]

/-- **Plurals of singulars.** A word is a form of its singular, apart from those few. -/
theorem isForm_singularOf_iff {word : Text} (hne : word ≠ []) :
    IsForm (singularOf word) word ↔ word ∉ withoutForm := by
  constructor
  · -- the singulars of the five words are known
    intro h hmem
    have hnone : ∀ word ∈ withoutForm, ¬ IsForm (singularOf word) word := by decide
    exact hnone word hmem h
  · intro h
    have hsingular := isSingular_singularOf word
    revert hsingular
    generalize singularOf word = single
    rintro (hlisted | hstem | hends | hends | _)
    · have hown : ∀ e ∈ irregularSingulars, e.1 ∉ withoutForm → IsForm e.2 e.1 := by decide
      exact hown _ hlisted h
    · exact .ies hstem
    · refine .es ?_
      rintro rfl
      exact absurd hends (by decide)
    · refine .s ?_
      rintro rfl
      exact h (by decide)
    · exact .self hne

theorem IsForm.length_le {word form : Text} (h : IsForm word form) : word.length ≤ form.length := by
  cases h with
  | self => exact Nat.le_refl _
  | s => simp
  | es => simp
  | ies => simp [Text.ofString]

/-- A form has one of the endings behind the word, or in place of its last letter. -/
theorem IsForm.eq_append {word form : Text} (h : IsForm word form) :
    (∃ ending ∈ [Text.ofString "", Text.ofString "s", Text.ofString "es"],
        form = word ++ ending) ∨
      ∃ stem, word = stem ++ "y" ∧ form = stem ++ "ies" := by
  cases h with
  | self => exact Or.inl ⟨"", by simp, (List.append_nil _).symm⟩
  | s => exact Or.inl ⟨"s", by simp, rfl⟩
  | es => exact Or.inl ⟨"es", by simp, rfl⟩
  | @ies stem _ => exact Or.inr ⟨stem, rfl, rfl⟩

/-- Behind what both words share, a `y` is never an `i`. -/
theorem y_ne_ies (stem rest rest' : Text) :
    stem ++ Text.ofString "y" ++ rest ≠ stem ++ Text.ofString "ies" ++ rest' := by
  intro h
  rw [List.append_assoc, List.append_assoc] at h
  have hcons : Sign.char 'y' :: rest = .char 'i' :: (Text.ofString "es" ++ rest') :=
    List.append_cancel_left h
  exact absurd (List.cons.inj hcons).1 (by decide)

/-- Where a short ending follows a word and both make two forms of the word, the word comes up
inside of the ending. -/
theorem sublist_of_append_forms {single first second rest ending : Text}
    (hfirst : IsForm single first) (hsecond : IsForm single second) (hlength : ending.length ≤ 2)
    (h : first ++ second ++ rest = single ++ ending) : single.Sublist ending := by
  rcases hfirst.eq_append with ⟨e, -, rfl⟩ | ⟨stem, rfl, rfl⟩
  · rw [List.append_assoc, List.append_assoc, List.append_right_inj] at h
    have hinside : second.Sublist ending := by
      refine List.IsInfix.sublist ⟨e, rest, ?_⟩
      rw [List.append_assoc, h]
    rcases hsecond.eq_append with ⟨e', -, rfl⟩ | ⟨stem, rfl, rfl⟩
    · exact (List.sublist_append_left single e').trans hinside
    · have hle := hinside.length_le
      rw [List.length_append, show (Text.ofString "ies").length = 3 from rfl] at hle
      omega
  · rw [List.append_assoc (stem ++ Text.ofString "ies")] at h
    exact absurd h.symm (y_ne_ies stem _ _)

/-- Two forms of a word do not fit into any word that it is the singular of. -/
theorem not_isForm_append {single first second rest : Text}
    (h : IsSingular single (first ++ second ++ rest)) (hfirst : IsForm single first) :
    ¬ IsForm single second := by
  intro hsecond
  have hne := hfirst.ne_nil
  have hpos := List.length_pos_iff.2 hne
  have hboth := Nat.add_le_add hfirst.length_le hsecond.length_le
  generalize hword : first ++ second ++ rest = word at h
  have hlength : first.length + second.length + rest.length = word.length := by
    rw [← hword, List.length_append, List.length_append]
  cases h with
  | listed hmem =>
    have hall : ∀ e ∈ irregularSingulars, e.1.length < 2 * e.2.length := by decide
    have hshort : word.length < 2 * single.length := hall _ hmem
    omega
  | self => omega
  | @ies stem _ =>
    rcases hfirst.eq_append with ⟨e, -, rfl⟩ | ⟨stem', hstem, rfl⟩
    · exact y_ne_ies stem (e ++ second ++ rest) [] (by simpa using hword)
    · -- the first form is the whole word, and nothing is left for the second one
      obtain rfl : stem = stem' := List.append_cancel_right hstem
      have hnone := hsecond.length_le
      omega
  | es hends =>
    have hinside := sublist_of_append_forms hfirst hsecond (by decide) hword
    have hall : ∀ x ∈ (Text.ofString "es").sublists, x ≠ [] → endsInAny esEnds x = false := by
      decide
    rw [hall single (List.mem_sublists.2 hinside) hne] at hends
    cases hends
  | s hends =>
    have hinside := sublist_of_append_forms hfirst hsecond (by decide) hword
    have hall : ∀ x ∈ (Text.ofString "s").sublists, x ≠ [] → endsInAny noPluralEnds x = true := by
      decide
    rw [hall single (List.mem_sublists.2 hinside) hne] at hends
    cases hends

end NodeForge.Naming
