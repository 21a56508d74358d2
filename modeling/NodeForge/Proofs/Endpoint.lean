import Mathlib.Data.List.TakeWhile
import NodeForge.Endpoint
import NodeForge.Proofs.Document.Entries
import NodeForge.Proofs.Text.Braces
import NodeForge.Proofs.Text.Rows

/-!
# The placeholders of an endpoint

The pieces of an endpoint make up its text again (`written_parts`), and there are placeholders
exactly where some name stands between braces (`placeholders_ne_nil_iff`). `Finds` says which names
a search from left to right finds, and the placeholders are these, each once and in the order in
which they come up first (`hasPlaceholders_iff`). Where the braces of an
endpoint do nothing but delimit placeholders, replacing a name between braces replaces the
placeholders of this name and nothing else (`replace_written`), and what comes out as a template
tells which constant stands for which placeholder (`asTemplate_inj`).
-/

namespace NodeForge.Endpoint

open Braces

/-! ### Pieces and their text -/

/-- The text of pieces in a row. -/
def written (row : List Part) : Text := row.flatMap Part.text

theorem written_cons (part : Part) (row : List Part) :
    written (part :: row) = part.text ++ written row := rfl

/-- A placeholder reaches to the first closing brace. -/
theorem eq_of_placeholderBefore? {rest name : Text} (h : placeholderBefore? rest = some name) :
    rest = name ++ .char '\x7d' :: rest.drop (name.length + 1) := by
  unfold placeholderBefore? at h
  dsimp only at h
  split at h
  · next hfound =>
    rw [Bool.and_eq_true, decide_eq_true_eq] at hfound
    obtain rfl := Option.some.inj h
    have hsplit := List.takeWhile_append_dropWhile (p := (· != Sign.char '\x7d')) (l := rest)
    -- what is left behind the name begins with the brace that ended it
    cases hbehind : rest.dropWhile (· != Sign.char '\x7d') with
    | nil =>
      rw [hbehind, List.append_nil] at hsplit
      exact absurd (congrArg List.length hsplit) (Nat.ne_of_lt hfound.2)
    | cons c cs =>
      have hc := List.head_dropWhile_not (· != Sign.char '\x7d') (l := rest) (by simp [hbehind])
      simp only [hbehind, List.head_cons, bne_eq_false_iff_eq] at hc
      rw [hbehind, hc] at hsplit
      have hdrop {name : Text} (h : rest = name ++ .char '\x7d' :: cs) :
          rest = name ++ .char '\x7d' :: rest.drop (name.length + 1) := by
        rw [h]
        simp
      exact hdrop hsplit.symm
  · cases h

theorem written_partsFrom (skip : Nat) (text : Text) :
    written (partsFrom skip text) = text.drop skip := by
  induction text generalizing skip with
  | nil => cases skip <;> rfl
  | cons c cs ih =>
    cases skip with
    | succ skip => exact ih skip
    | zero =>
      rw [partsFrom, List.drop_zero]
      split
      · next hbrace =>
        split
        · next name hname =>
          have hrest := eq_of_placeholderBefore? hname
          rw [written_cons, ih, hbrace]
          show Sign.char '\x7b' :: (name ++ [Sign.char '\x7d']) ++ cs.drop (name.length + 1) = _
          rw [List.cons_append, List.append_assoc]
          exact congrArg _ hrest.symm
        · rw [written_cons, ih]
          rfl
      · rw [written_cons, ih]
        rfl

/-- The pieces of an endpoint make it up. -/
theorem written_parts (endpoint : Text) : written (parts endpoint) = endpoint :=
  written_partsFrom 0 endpoint

/-! ### Placeholders -/

theorem mem_placeholders {endpoint name : Text} :
    name ∈ placeholders endpoint ↔ .placeholder name ∈ parts endpoint := by
  rw [placeholders, Entries.mem_distinct, List.mem_filterMap]
  constructor
  · rintro ⟨part, hpart, hname⟩
    cases part with
    | plain c => cases hname
    | placeholder n =>
      rw [← Option.some.inj hname]
      exact hpart
  · intro h
    exact ⟨_, h, rfl⟩

/-! ### Enclosed names -/

/-- Whether an endpoint encloses a name: somewhere there are an opening brace, the signs of the
name, none of which is a closing brace, and a closing brace. -/
structure Encloses (endpoint name : Text) : Prop where
  ne_nil : name ≠ []
  notMem : Sign.char '\x7d' ∉ name
  occurs : ∃ before after, endpoint = before ++ .char '\x7b' :: (name ++ .char '\x7d' :: after)

theorem placeholderBefore?_eq_some_iff {rest name : Text} :
    placeholderBefore? rest = some name ↔
      name ≠ [] ∧ Sign.char '\x7d' ∉ name ∧ ∃ after, rest = name ++ .char '\x7d' :: after := by
  constructor
  · intro h
    have hrest := eq_of_placeholderBefore? h
    unfold placeholderBefore? at h
    dsimp only at h
    split at h
    · next hfound =>
      obtain rfl := Option.some.inj h
      rw [Bool.and_eq_true, Bool.not_eq_true', List.isEmpty_eq_false_iff] at hfound
      refine ⟨hfound.1, fun hmem => ?_, _, hrest⟩
      exact absurd (List.mem_takeWhile_imp hmem) (by simp)
    · cases h
  · rintro ⟨hne, hnot, after, rfl⟩
    have hgiven : name.isEmpty = false := List.isEmpty_eq_false_iff.2 hne
    unfold placeholderBefore?
    rw [Rows.takeWhile_append_mark hnot]
    simp [hgiven]

/-- A name is enclosed at the beginning of an endpoint, or behind its first sign. -/
theorem encloses_cons_iff {c : Sign} {cs name : Text} :
    Encloses (c :: cs) name ↔
      (c = .char '\x7b' ∧ placeholderBefore? cs = some name) ∨ Encloses cs name := by
  rw [placeholderBefore?_eq_some_iff]
  constructor
  · rintro ⟨hne, hnot, before, after, heq⟩
    cases before with
    | nil =>
      obtain ⟨rfl, rfl⟩ := List.cons.inj heq
      exact Or.inl ⟨rfl, hne, hnot, after, rfl⟩
    | cons d before => exact Or.inr ⟨hne, hnot, before, after, (List.cons.inj heq).2⟩
  · rintro (⟨rfl, hne, hnot, after, rfl⟩ | ⟨hne, hnot, before, after, rfl⟩)
    · exact ⟨hne, hnot, [], after, rfl⟩
    · exact ⟨hne, hnot, c :: before, after, rfl⟩

theorem encloses_of_mem_partsFrom {skip : Nat} {text name : Text}
    (h : .placeholder name ∈ partsFrom skip text) : Encloses text name := by
  induction text generalizing skip with
  | nil => cases skip <;> cases h
  | cons c cs ih =>
    rw [encloses_cons_iff]
    cases skip with
    | succ skip => exact Or.inr (ih h)
    | zero =>
      rw [partsFrom] at h
      split at h
      · next hbrace =>
        split at h
        · next found hfound =>
          rcases List.mem_cons.1 h with heq | h
          · rw [Part.placeholder.inj heq]
            exact Or.inl ⟨hbrace, hfound⟩
          · exact Or.inr (ih h)
        · rcases List.mem_cons.1 h with heq | h
          · cases heq
          · exact Or.inr (ih h)
      · rcases List.mem_cons.1 h with heq | h
        · cases heq
        · exact Or.inr (ih h)

/-- Where a name is enclosed, there is a placeholder. It may have a longer name that begins
before. -/
theorem exists_placeholder_of_encloses {text name : Text} (h : Encloses text name) :
    ∃ found, .placeholder found ∈ partsFrom 0 text := by
  induction text with
  | nil =>
    obtain ⟨-, -, before, after, heq⟩ := h
    exact absurd heq.symm (by simp)
  | cons c cs ih =>
    rw [partsFrom]
    rcases encloses_cons_iff.1 h with ⟨rfl, hname⟩ | hcs
    · rw [if_pos rfl, hname]
      exact ⟨name, List.mem_cons_self⟩
    · obtain ⟨found, hfound⟩ := ih hcs
      split
      · split
        · next first _ => exact ⟨first, List.mem_cons_self⟩
        · exact ⟨found, List.mem_cons_of_mem _ hfound⟩
      · exact ⟨found, List.mem_cons_of_mem _ hfound⟩

/-- An endpoint has placeholders exactly if it encloses a name. -/
theorem placeholders_ne_nil_iff {endpoint : Text} :
    placeholders endpoint ≠ [] ↔ ∃ name, Encloses endpoint name := by
  constructor
  · intro h
    obtain ⟨name, hname⟩ := List.exists_mem_of_ne_nil _ h
    exact ⟨name, encloses_of_mem_partsFrom (mem_placeholders.1 hname)⟩
  · rintro ⟨name, hname⟩
    obtain ⟨found, hfound⟩ := exists_placeholder_of_encloses hname
    exact List.ne_nil_of_mem (mem_placeholders.2 hfound)

/-! ### What a search finds -/

/-- Whether a text begins with a placeholder: with an opening brace, the signs of the name, none of
which is a closing brace, and a closing brace. -/
structure BeginsWith (name behind text : Text) : Prop where
  ne_nil : name ≠ []
  notMem : Sign.char '\x7d' ∉ name
  text_eq : text = .char '\x7b' :: (name ++ .char '\x7d' :: behind)

/-- Which names are found in a text that is searched from left to right: where it begins with a
placeholder, this one and then those behind it, and else those behind its first sign. -/
inductive Finds : Text → List Text → Prop
  | nil : Finds [] []
  | found {name behind text : Text} {names : List Text} (h : BeginsWith name behind text)
    (hbehind : Finds behind names) : Finds text (name :: names)
  | passed {c : Sign} {cs : Text} {names : List Text}
    (h : ∀ name behind, ¬ BeginsWith name behind (c :: cs)) (hbehind : Finds cs names) :
    Finds (c :: cs) names

theorem beginsWith_iff {name behind : Text} {c : Sign} {cs : Text} :
    BeginsWith name behind (c :: cs) ↔ c = .char '\x7b' ∧ placeholderBefore? cs = some name ∧
      behind = cs.drop (name.length + 1) := by
  rw [placeholderBefore?_eq_some_iff]
  constructor
  · rintro ⟨hne, hnot, heq⟩
    obtain ⟨rfl, rfl⟩ := List.cons.inj heq
    exact ⟨rfl, ⟨hne, hnot, behind, rfl⟩, by simp⟩
  · rintro ⟨rfl, ⟨hne, hnot, after, rfl⟩, rfl⟩
    exact ⟨hne, hnot, by simp⟩

/-- A search has one result. -/
theorem Finds.unique {text : Text} {names names' : List Text} (h : Finds text names)
    (h' : Finds text names') : names = names' := by
  induction h generalizing names' with
  | nil => cases h' with
    | nil => rfl
    | found hfound _ => cases hfound.text_eq
  | found hfound _ ih =>
    have hcons := hfound.text_eq
    cases h' with
    | nil => cases hcons
    | passed hnone _ => exact absurd hfound (hnone _ _)
    | found hfound' hbehind' =>
      rw [hcons, beginsWith_iff] at hfound hfound'
      obtain ⟨-, hname, hrest⟩ := hfound
      obtain ⟨-, hname', hrest'⟩ := hfound'
      obtain rfl := Option.some.inj (hname.symm.trans hname')
      rw [hrest, ← hrest'] at ih
      rw [ih hbehind']
  | passed hnone _ ih =>
    cases h' with
    | found hfound _ => exact absurd hfound (hnone _ _)
    | passed _ hbehind' => exact ih hbehind'

/-- The pieces hold what a search finds. -/
theorem finds_partsFrom (skip : Nat) (text : Text) :
    Finds (text.drop skip) ((partsFrom skip text).filterMap Part.name?) := by
  induction text generalizing skip with
  | nil => cases skip <;> exact .nil
  | cons c cs ih =>
    cases skip with
    | succ skip => exact ih skip
    | zero =>
      rw [partsFrom, List.drop_zero]
      split
      · next hbrace =>
        split
        · next name hname =>
          exact .found (beginsWith_iff.2 ⟨hbrace, hname, rfl⟩) (ih (name.length + 1))
        · next hnone =>
          refine .passed (fun name behind h => ?_) (ih 0)
          rw [(beginsWith_iff.1 h).2.1] at hnone
          cases hnone
      · next hbrace => exact .passed (fun name behind h => hbrace (beginsWith_iff.1 h).1) (ih 0)

/-- Whether names are those of the placeholders of an endpoint: what a search finds, each once and
in the order in which it comes up first. -/
def HasPlaceholders (endpoint : Text) (names : List Text) : Prop :=
  ∃ found, Finds endpoint found ∧ Entries.IsOnceEach found names

theorem hasPlaceholders_iff {endpoint : Text} {names : List Text} :
    HasPlaceholders endpoint names ↔ names = placeholders endpoint := by
  have hfinds := finds_partsFrom 0 endpoint
  constructor
  · rintro ⟨found, hfound, hnames⟩
    obtain rfl := hfound.unique hfinds
    exact hnames.unique (Entries.isOnceEach_distinct _)
  · rintro rfl
    exact ⟨_, hfinds, Entries.isOnceEach_distinct _⟩

/-! ### Braces that delimit placeholders -/

/-- What a piece holds beside the braces of a placeholder. -/
def Part.inner : Part → Text
  | .plain c => [c]
  | .placeholder name => name

/-- Whether the braces of pieces do nothing but delimit placeholders. -/
def AreDelimited (row : List Part) : Prop := ∀ part ∈ row, IsBraceless part.inner

/-- Whether the braces of an endpoint do nothing but delimit placeholders. -/
def OnlyDelimits (endpoint : Text) : Prop := AreDelimited (parts endpoint)

instance (row : List Part) : Decidable (AreDelimited row) :=
  inferInstanceAs (Decidable (∀ part ∈ row, _))

instance (endpoint : Text) : Decidable (OnlyDelimits endpoint) :=
  inferInstanceAs (Decidable (AreDelimited _))

theorem areDelimited_cons {part : Part} {row : List Part} :
    AreDelimited (part :: row) ↔ IsBraceless part.inner ∧ AreDelimited row :=
  List.forall_mem_cons

theorem text_append (name rest : Text) : (Part.placeholder name).text ++ rest =
    .char '\x7b' :: (name ++ .char '\x7d' :: rest) := by
  rw [Part.text]
  simp

/-- A piece under another name. -/
def Part.rename (f : Text → Text) : Part → Part
  | .plain c => .plain c
  | .placeholder name => .placeholder (f name)

theorem map_rename_id (f : Text → Text) (hf : ∀ name, f name = name) (row : List Part) :
    row.map (Part.rename f) = row := by
  refine (List.map_congr_left fun part _ => ?_).trans (List.map_id row)
  cases part with
  | plain c => rfl
  | placeholder name => exact congrArg Part.placeholder (hf name)

theorem map_rename_map (f g : Text → Text) (row : List Part) :
    (row.map (Part.rename f)).map (Part.rename g) = row.map (Part.rename (g ∘ f)) := by
  rw [List.map_map]
  refine List.map_congr_left fun part _ => ?_
  cases part <;> rfl

theorem areDelimited_map_rename {row : List Part} {f : Text → Text} (h : AreDelimited row)
    (hf : ∀ name, IsBraceless name → IsBraceless (f name)) :
    AreDelimited (row.map (Part.rename f)) := by
  intro part hpart
  obtain ⟨own, hown, rfl⟩ := List.mem_map.1 hpart
  cases own with
  | plain c => exact h _ hown
  | placeholder name => exact hf name (h _ hown)

variable {row : List Part}

/-! ### Replacing names -/

/-- The rest of a placeholder stays as it is where a pattern begins with a brace. -/
theorem replaceFrom_closed {pattern new name : Text} (h : Sign.char '\x7b' ∉ name) (rest : Text) :
    Rows.replaceFrom (.char '\x7b' :: pattern) new 0 (name ++ .char '\x7d' :: rest) =
      name ++ .char '\x7d' :: Rows.replaceFrom (.char '\x7b' :: pattern) new 0 rest := by
  have hclosed : Sign.char '\x7b' ∉ name ++ [.char '\x7d'] := by
    rw [List.mem_append, not_or]
    exact ⟨h, by decide⟩
  rw [List.append_cons, List.append_cons name _ (Rows.replaceFrom _ _ _ _)]
  exact Rows.replaceFrom_of_notMem hclosed rest

/-- **Replacing a name.** Every placeholder of this name is renamed, and nothing else is. -/
theorem replace_written (hrow : AreDelimited row) {x : Text} (hx : IsBraceless x) (y : Text) :
    Text.replace (Part.placeholder x).text (Part.placeholder y).text (written row) =
      written (row.map (Part.rename fun name => if name = x then y else name)) := by
  rw [Text.replace, Rows.replace]
  induction row with
  | nil => rfl
  | cons part rest ih =>
    obtain ⟨hpart, hrest⟩ := areDelimited_cons.1 hrow
    rw [List.map_cons, written_cons, written_cons, ← ih hrest]
    cases part with
    | plain c => exact Rows.replaceFrom_of_notMem hpart.1 _
    | placeholder name =>
      rw [Part.rename]
      by_cases hname : name = x
      · rw [if_pos hname, hname]
        exact Rows.replaceFrom_pattern _
      · rw [if_neg hname]
        -- another name ends at another place, or differs before
        have hno : (Part.placeholder x).text.isPrefixOf
            ((Part.placeholder name).text ++ written rest) = false := by
          rw [← Bool.not_eq_true, List.isPrefixOf_iff_prefix]
          rintro ⟨behind, hbehind⟩
          rw [text_append, text_append, List.cons.injEq] at hbehind
          exact hname ((Rows.append_mark_inj hx.2 hpart.2).1 hbehind.2).1.symm
        rw [text_append] at hno ⊢
        rw [Rows.replaceFrom, hno, if_neg Bool.false_ne_true, text_append]
        exact congrArg _ (replaceFrom_closed hpart.1 _)

/-! ### Templates -/

/-- A piece of a template, where placeholders stand for constants. -/
def Part.template (constant : Text → Text) : Part → Text
  | .plain c => [c]
  | .placeholder name => .char '$' :: .char '\x7b' :: (constant name ++ [.char '\x7d'])

theorem template_append (constant : Text → Text) (name rest : Text) :
    (Part.placeholder name).template constant ++ rest =
      .char '$' :: .char '\x7b' :: (constant name ++ .char '\x7d' :: rest) := by
  rw [Part.template]
  simp

/-- Pieces as a template: each placeholder is the constant for its name, and all else stays. -/
def asTemplate (constant : Text → Text) (row : List Part) : Text :=
  row.flatMap (Part.template constant)

theorem asTemplate_cons (constant : Text → Text) (part : Part) (row : List Part) :
    asTemplate constant (part :: row) = part.template constant ++ asTemplate constant row := rfl

theorem asTemplate_map_rename (f constant : Text → Text) (row : List Part) :
    asTemplate constant (row.map (Part.rename f)) = asTemplate (constant ∘ f) row := by
  rw [asTemplate, asTemplate, List.flatMap_map]
  refine congrArg (List.flatMap · row) (funext fun part => ?_)
  cases part <;> rfl

/-- A template tells the constants of its placeholders. -/
theorem asTemplate_inj {f g : Text → Text}
    (hf : ∀ name, .placeholder name ∈ row → IsBraceless (f name))
    (hg : ∀ name, .placeholder name ∈ row → IsBraceless (g name)) :
    asTemplate f row = asTemplate g row ↔ ∀ name, .placeholder name ∈ row → f name = g name := by
  induction row with
  | nil => exact iff_of_true rfl nofun
  | cons part rest ih =>
    have hrest := ih (fun name hname => hf name (.tail _ hname)) fun name hname =>
      hg name (.tail _ hname)
    rw [asTemplate_cons, asTemplate_cons]
    cases part with
    | plain c =>
      rw [Part.template, Part.template, List.append_cancel_left_eq, hrest]
      simp
    | placeholder name =>
      have hends : (Part.placeholder name).template f ++ asTemplate f rest =
            (Part.placeholder name).template g ++ asTemplate g rest ↔
          f name ++ Sign.char '\x7d' :: asTemplate f rest =
            g name ++ Sign.char '\x7d' :: asTemplate g rest := by
        simp [template_append]
      rw [hends, Rows.append_mark_inj (hf name List.mem_cons_self).2
        (hg name List.mem_cons_self).2, hrest]
      simp

end NodeForge.Endpoint
