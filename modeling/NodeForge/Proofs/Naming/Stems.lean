import NodeForge.Naming.Words

/-!
# What camel case keeps of a name

Camel case forgets the marks between the words of a name and their capitals. What it keeps are the
stems: the words in small letters, where a word that begins with a digit runs on behind the word
before it, since a digit has no capital. Cutting the Pascal case of a name at its capitals gives
the stems back (`cut_pascal`), so two names have one Pascal case exactly if they have the same stems
(`pascal_eq_iff`). Camel case is Pascal case with its first letter small (`camel_eq_withFirst`), and
the same goes for it (`camel_eq_iff`).
-/

namespace NodeForge.Naming

/-! ### Signs of words -/

/-- Whether a sign is a small ASCII letter or a digit. -/
def isSmallSign (s : Sign) : Bool := s.meets Letter.isAsciiSmall || s.meets Char.isDigit

/-- Whether a sign is an ASCII capital. -/
def isCapitalSign (s : Sign) : Bool := s.meets Letter.isAsciiCapital

/-- What holds of the characters below 128 holds of all signs of words. -/
theorem forall_wordSign {P : Sign → Prop} (h : ∀ n : Fin 128, P (.char (Char.ofNat n))) {s : Sign}
    (hs : isWordSign s = true) : P s := by
  cases s with
  | half k => cases hs
  | char c =>
    have hc : c.toNat < 128 := by
      have hbelow {high : Char} (hle : c.val ≤ high.val) (hhigh : high.toNat < 128) :
          c.toNat < 128 := Nat.lt_of_le_of_lt (UInt32.le_iff_toNat_le.1 hle) hhigh
      have hword : ((c.isUpper || c.isLower) || c.isDigit) = true := hs
      rw [Bool.or_eq_true, Bool.or_eq_true] at hword
      rcases hword with (hupper | hlower) | hdigit
      · exact hbelow (of_decide_eq_true hupper).2 (by decide)
      · exact hbelow (of_decide_eq_true (Bool.and_eq_true_iff.1 hlower).2) (by decide)
      · exact hbelow (of_decide_eq_true (Bool.and_eq_true_iff.1 hdigit).2) (by decide)
    have hself := h ⟨c.toNat, hc⟩
    rwa [Char.ofNat_toNat] at hself

theorem isWordSign_of_isSmallSign {s : Sign} (h : isSmallSign s = true) : isWordSign s = true := by
  cases s with
  | half k => cases h
  | char c =>
    have hsmall : (c.isLower || c.isDigit) = true := h
    have hword : ((c.isUpper || c.isLower) || c.isDigit) = true := by
      rw [Bool.or_assoc, hsmall, Bool.or_true]
    exact hword

theorem isSmallSign_toLower {s : Sign} (h : isWordSign s = true) :
    isSmallSign (s.mapChar Char.toLower) = true :=
  forall_wordSign (P := fun s => isWordSign s = true → isSmallSign (s.mapChar Char.toLower) = true)
    (by decide) h h

theorem isWordSign_toUpper {s : Sign} (h : isWordSign s = true) :
    isWordSign (s.mapChar Char.toUpper) = true :=
  forall_wordSign (P := fun s => isWordSign s = true → isWordSign (s.mapChar Char.toUpper) = true)
    (by decide) h h

theorem toLower_of_isSmallSign {s : Sign} (h : isSmallSign s = true) :
    s.mapChar Char.toLower = s :=
  forall_wordSign (P := fun s => isSmallSign s = true → s.mapChar Char.toLower = s)
    (by decide) (isWordSign_of_isSmallSign h) h

theorem toLower_toUpper {s : Sign} (h : isWordSign s = true) :
    (s.mapChar Char.toUpper).mapChar Char.toLower = s.mapChar Char.toLower :=
  forall_wordSign (P := fun s =>
    (s.mapChar Char.toUpper).mapChar Char.toLower = s.mapChar Char.toLower) (by decide) h

theorem toUpper_toLower {s : Sign} (h : isWordSign s = true) :
    (s.mapChar Char.toLower).mapChar Char.toUpper = s.mapChar Char.toUpper :=
  forall_wordSign (P := fun s =>
    (s.mapChar Char.toLower).mapChar Char.toUpper = s.mapChar Char.toUpper) (by decide) h

theorem not_isCapitalSign {s : Sign} (h : isSmallSign s = true) : isCapitalSign s = false :=
  forall_wordSign (P := fun s => isSmallSign s = true → isCapitalSign s = false)
    (by decide) (isWordSign_of_isSmallSign h) h

/-- A digit stays as it is in capitals, and any other small sign becomes a capital. -/
theorem toUpper_of_isSmallSign {s : Sign} (h : isSmallSign s = true) :
    if s.meets Char.isDigit then s.mapChar Char.toUpper = s
    else isCapitalSign (s.mapChar Char.toUpper) = true :=
  forall_wordSign (P := fun s => isSmallSign s = true → if s.meets Char.isDigit then
      s.mapChar Char.toUpper = s else isCapitalSign (s.mapChar Char.toUpper) = true)
    (by decide) (isWordSign_of_isSmallSign h) h

/-! ### Words -/

/-- Words are made of letters and digits. -/
theorem isWordSign_of_mem_words {text word : Text} (h : word ∈ words text) :
    ∀ s ∈ word, isWordSign s = true := by
  induction text generalizing word with
  | nil => simp at h
  | cons c cs ih =>
    unfold words at h
    split at h
    · exact ih h
    · next hc =>
      have hword : isWordSign c = true := by simpa using hc
      split at h
      · rcases List.mem_cons.1 h with rfl | h
        · simpa using hword
        · exact ih h
      · split at h
        · rw [List.mem_singleton] at h
          simpa [h] using hword
        · next first rest hw =>
          rcases List.mem_cons.1 h with rfl | h
          · intro s hs
            rcases List.mem_cons.1 hs with rfl | hs
            · exact hword
            · exact ih (hw ▸ List.mem_cons_self) s hs
          · exact ih (hw ▸ List.mem_cons_of_mem _ h)

/-- Whether a word is not empty and written in small letters and digits. -/
structure IsSmallWord (word : Text) : Prop where
  ne_nil : word ≠ []
  small : ∀ s ∈ word, isSmallSign s = true

theorem isSmallWord_small {text word : Text} (h : word ∈ words text) :
    IsSmallWord (small word) where
  ne_nil := fun hnil => ne_nil_of_mem_words h (List.map_eq_nil_iff.1 hnil)
  small s hs := by
    obtain ⟨c, hc, rfl⟩ := List.mem_map.1 hs
    exact isSmallSign_toLower (isWordSign_of_mem_words h c hc)

theorem small_of_isSmallWord {word : Text} (h : IsSmallWord word) : small word = word :=
  (List.map_congr_left fun s hs => toLower_of_isSmallSign (h.small s hs)).trans (List.map_id _)

theorem small_small {word : Text} (h : ∀ s ∈ word, isWordSign s = true) :
    small (small word) = small word := by
  rw [small, small, List.map_map]
  exact List.map_congr_left fun s hs => toLower_of_isSmallSign (isSmallSign_toLower (h s hs))

theorem small_capitalize {word : Text} (h : ∀ s ∈ word, isWordSign s = true) :
    small (capitalize word) = small word := by
  cases word with
  | nil => rfl
  | cons c cs =>
    have hrest : small (small cs) = small cs :=
      small_small fun s hs => h s (List.mem_cons_of_mem _ hs)
    rw [capitalize, small, small, List.map_cons, List.map_cons,
      toLower_toUpper (h c List.mem_cons_self)]
    exact congrArg _ hrest

/-- A capitalized word does not tell how it was written. -/
theorem capitalize_small {word : Text} (h : ∀ s ∈ word, isWordSign s = true) :
    capitalize (small word) = capitalize word := by
  cases word with
  | nil => rfl
  | cons c cs =>
    have hrest : small (small cs) = small cs :=
      small_small fun s hs => h s (List.mem_cons_of_mem _ hs)
    rw [small, List.map_cons, capitalize, capitalize, toUpper_toLower (h c List.mem_cons_self)]
    exact congrArg _ hrest

/-! ### Stems -/

/-- Words where each one that begins with a digit is written behind the one before it. -/
def glue : List Text → List Text
  | [] => []
  | word :: rest =>
    match glue rest with
    | [] => [word]
    | next :: others =>
      if Text.firstMeets Char.isDigit next then (word ++ next) :: others
      else word :: next :: others

/-- The stems of a name: what its camel case keeps. -/
def stems (name : Text) : List Text := glue ((words name).map small)

/-- Whether a row of words can be told apart by their capitals: all of them are small words, and
only the first one may begin with a digit. -/
structure AreStems (row : List Text) : Prop where
  small : ∀ word ∈ row, IsSmallWord word
  letters : ∀ word ∈ row.tail, Text.firstMeets Char.isDigit word = false

theorem areStems_glue {row : List Text} (h : ∀ word ∈ row, IsSmallWord word) :
    AreStems (glue row) := by
  induction row with
  | nil => exact ⟨by simp [glue], by simp [glue]⟩
  | cons word rest ih =>
    have hword := h word List.mem_cons_self
    have hrest := ih fun w hw => h w (List.mem_cons_of_mem _ hw)
    rw [glue]
    split
    · exact ⟨by simpa using hword, by simp⟩
    · next next others hglue =>
      rw [hglue] at hrest
      have hnext := hrest.small next List.mem_cons_self
      have hothers : ∀ w ∈ others, IsSmallWord w := fun w hw =>
        hrest.small w (List.mem_cons_of_mem _ hw)
      split
      -- the next word runs on behind this one
      · refine ⟨?_, hrest.letters⟩
        intro w hw
        rcases List.mem_cons.1 hw with rfl | hw
        · refine ⟨by simp [hword.ne_nil], fun s hs => ?_⟩
          rcases List.mem_append.1 hs with hs | hs
          · exact hword.small s hs
          · exact hnext.small s hs
        · exact hothers w hw
      · next hletter =>
        constructor
        · intro w hw
          rcases List.mem_cons.1 hw with rfl | hw
          · exact hword
          · exact hrest.small w hw
        · intro w hw
          rcases List.mem_cons.1 hw with rfl | hw
          · simpa using hletter
          · exact hrest.letters w hw

theorem areStems_stems (name : Text) : AreStems (stems name) := by
  refine areStems_glue fun word hword => ?_
  obtain ⟨own, hown, rfl⟩ := List.mem_map.1 hword
  exact isSmallWord_small hown

/-! ### Writing stems -/

/-- A word behind another one is capitalized at its place: a digit in front stays as it is. -/
theorem capitalize_append {word next : Text} (hword : IsSmallWord word) (hnext : IsSmallWord next)
    (hdigit : Text.firstMeets Char.isDigit next = true) :
    capitalize (word ++ next) = capitalize word ++ capitalize next := by
  obtain ⟨c, cs, rfl⟩ := List.exists_cons_of_ne_nil hword.ne_nil
  obtain ⟨d, ds, rfl⟩ := List.exists_cons_of_ne_nil hnext.ne_nil
  have hd : isSmallSign d = true := hnext.small d List.mem_cons_self
  have hupper := toUpper_of_isSmallSign hd
  rw [if_pos (show d.meets Char.isDigit = true from hdigit)] at hupper
  simp only [List.cons_append, capitalize, List.map_append, List.map_cons, hupper,
    toLower_of_isSmallSign hd]

theorem flatten_capitalize_glue {row : List Text} (h : ∀ word ∈ row, IsSmallWord word) :
    ((glue row).map capitalize).flatten = (row.map capitalize).flatten := by
  induction row with
  | nil => rfl
  | cons word rest ih =>
    have hrest : ∀ w ∈ rest, IsSmallWord w := fun w hw => h w (List.mem_cons_of_mem _ hw)
    have hstems := areStems_glue hrest
    rw [List.map_cons, List.flatten_cons, ← ih hrest, glue]
    split
    · next hglue => rw [hglue]; rfl
    · next next others hglue =>
      rw [hglue] at hstems ⊢
      split
      · next hdigit =>
        rw [List.map_cons, List.flatten_cons, capitalize_append (h word List.mem_cons_self)
          (hstems.small next List.mem_cons_self) hdigit, List.append_assoc]
        rfl
      · rfl

/-- The Pascal case of a name is that of its stems. -/
theorem pascal_eq (name : Text) : pascal name = ((stems name).map capitalize).flatten := by
  have hsmall : ∀ word ∈ (words name).map small, IsSmallWord word := by
    intro word hword
    obtain ⟨own, hown, rfl⟩ := List.mem_map.1 hword
    exact isSmallWord_small hown
  rw [stems, flatten_capitalize_glue hsmall, List.map_map, pascal]
  refine congrArg List.flatten (List.map_congr_left fun word hword => ?_)
  exact (capitalize_small (isWordSign_of_mem_words hword)).symm

/-! ### Cutting at capitals -/

/-- Cuts a text in front of each of its capitals. -/
def cut : Text → List Text
  | [] => []
  | c :: cs =>
    match cut cs with
    | [] => [[c]]
    | piece :: rest =>
      if Text.firstMeets Letter.isAsciiCapital piece then [c] :: piece :: rest
      else (c :: piece) :: rest

/-- The first piece begins as the text does. -/
theorem exists_cut_cons (c : Sign) (cs : Text) :
    ∃ piece rest, cut (c :: cs) = (c :: piece) :: rest := by
  rw [cut]
  split
  · exact ⟨[], [], rfl⟩
  · next piece rest _ =>
    split
    · exact ⟨[], piece :: rest, rfl⟩
    · exact ⟨piece, rest, rfl⟩

/-- A piece ends where the next capital begins another one. -/
theorem cut_append {piece rest : Text} (hne : piece ≠ [])
    (hpiece : ∀ s ∈ piece.tail, isCapitalSign s = false)
    (hrest : rest = [] ∨ Text.firstMeets Letter.isAsciiCapital rest = true) :
    cut (piece ++ rest) = piece :: cut rest := by
  induction piece with
  | nil => exact absurd rfl hne
  | cons c cs ih =>
    rw [List.cons_append, cut]
    cases cs with
    | nil =>
      rw [List.nil_append]
      rcases hrest with rfl | hcapital
      · rfl
      · cases rest with
        | nil => cases hcapital
        | cons d ds =>
          obtain ⟨first, others, hcut⟩ := exists_cut_cons d ds
          rw [hcut]
          exact if_pos hcapital
    | cons d ds =>
      have hd : Text.firstMeets Letter.isAsciiCapital (d :: ds) = false :=
        hpiece d List.mem_cons_self
      rw [ih (List.cons_ne_nil d ds) fun s hs => hpiece s (List.mem_cons_of_mem _ hs)]
      exact if_neg (Bool.not_eq_true _ ▸ hd)

theorem cut_flatten {pieces : List Text} (hne : ∀ piece ∈ pieces, piece ≠ [])
    (hpieces : ∀ piece ∈ pieces, ∀ s ∈ piece.tail, isCapitalSign s = false)
    (hbegin : ∀ piece ∈ pieces.tail, Text.firstMeets Letter.isAsciiCapital piece = true) :
    cut pieces.flatten = pieces := by
  induction pieces with
  | nil => rfl
  | cons piece rest ih =>
    have hrest : rest.flatten = [] ∨
        Text.firstMeets Letter.isAsciiCapital rest.flatten = true := by
      cases rest with
      | nil => exact Or.inl rfl
      | cons next others =>
        have hnext := hbegin next List.mem_cons_self
        cases next with
        | nil => cases hnext
        | cons d ds => exact Or.inr hnext
    rw [List.flatten_cons, cut_append (hne piece List.mem_cons_self)
      (hpieces piece List.mem_cons_self) hrest]
    refine congrArg _ (ih (fun p hp => hne p (List.mem_cons_of_mem _ hp))
      (fun p hp => hpieces p (List.mem_cons_of_mem _ hp)) fun p hp => ?_)
    exact hbegin p (List.mem_of_mem_tail hp)

/-- Cutting the Pascal case of a name gives its stems back, in capitals. -/
theorem cut_pascal (name : Text) : cut (pascal name) = (stems name).map capitalize := by
  have hstems := areStems_stems name
  have hletter {word : Text} (hword : IsSmallWord word)
      (hdigit : Text.firstMeets Char.isDigit word = false) :
      Text.firstMeets Letter.isAsciiCapital (capitalize word) = true := by
    obtain ⟨c, cs, rfl⟩ := List.exists_cons_of_ne_nil hword.ne_nil
    have hupper := toUpper_of_isSmallSign (hword.small c List.mem_cons_self)
    rwa [if_neg (by rw [show c.meets Char.isDigit = false from hdigit]; exact Bool.false_ne_true)]
      at hupper
  rw [pascal_eq]
  refine cut_flatten ?_ ?_ ?_
  · intro piece hpiece
    obtain ⟨word, hword, rfl⟩ := List.mem_map.1 hpiece
    obtain ⟨c, cs, rfl⟩ := List.exists_cons_of_ne_nil (hstems.small word hword).ne_nil
    exact List.cons_ne_nil _ _
  · intro piece hpiece s hs
    obtain ⟨word, hword, rfl⟩ := List.mem_map.1 hpiece
    obtain ⟨c, cs, rfl⟩ := List.exists_cons_of_ne_nil (hstems.small word hword).ne_nil
    obtain ⟨d, hd, rfl⟩ := List.mem_map.1 hs
    have hsmall := (hstems.small _ hword).small d (List.mem_cons_of_mem _ hd)
    rw [toLower_of_isSmallSign hsmall]
    exact not_isCapitalSign hsmall
  · intro piece hpiece
    rw [← List.map_tail] at hpiece
    obtain ⟨word, hword, rfl⟩ := List.mem_map.1 hpiece
    exact hletter (hstems.small word (List.mem_of_mem_tail hword)) (hstems.letters word hword)

theorem map_small_cut_pascal (name : Text) : (cut (pascal name)).map small = stems name := by
  rw [cut_pascal, List.map_map]
  refine (List.map_congr_left fun word hword => ?_).trans (List.map_id _)
  have hword := (areStems_stems name).small word hword
  have hsigns : ∀ s ∈ word, isWordSign s = true := fun s hs =>
    isWordSign_of_isSmallSign (hword.small s hs)
  exact (small_capitalize hsigns).trans (small_of_isSmallWord hword)

/-! ### Names with one camel case -/

/-- **Pascal case.** Two names have the same Pascal case exactly if they have the same stems. -/
theorem pascal_eq_iff {a b : Text} : pascal a = pascal b ↔ stems a = stems b := by
  constructor
  · intro h
    rw [← map_small_cut_pascal, h, map_small_cut_pascal]
  · intro h
    rw [pascal_eq, pascal_eq, h]

/-- A text with its first sign changed. -/
def withFirst (f : Char → Char) : Text → Text
  | [] => []
  | c :: cs => c.mapChar f :: cs

/-- Camel case is Pascal case with its first letter small. -/
theorem camel_eq_withFirst (name : Text) : camel name = withFirst Char.toLower (pascal name) := by
  rw [camel, pascal]
  cases hwords : words name with
  | nil => rfl
  | cons word rest =>
    have hmem : word ∈ words name := by simp [hwords]
    cases word with
    | nil => exact absurd rfl (ne_nil_of_mem_words hmem)
    | cons c cs =>
      have hc := isWordSign_of_mem_words hmem c List.mem_cons_self
      simp only [camelOf, small, capitalize, withFirst, List.map_cons, List.flatten_cons,
        List.cons_append, toLower_toUpper hc]

theorem pascal_eq_withFirst (name : Text) : pascal name = withFirst Char.toUpper (camel name) := by
  rw [camel, pascal]
  cases hwords : words name with
  | nil => rfl
  | cons word rest =>
    have hmem : word ∈ words name := by simp [hwords]
    cases word with
    | nil => exact absurd rfl (ne_nil_of_mem_words hmem)
    | cons c cs =>
      have hc := isWordSign_of_mem_words hmem c List.mem_cons_self
      simp only [camelOf, small, capitalize, withFirst, List.map_cons, List.flatten_cons,
        List.cons_append, toUpper_toLower hc]

/-- **Camel case.** Two names have the same camel case exactly if they have the same stems. -/
theorem camel_eq_iff {a b : Text} : camel a = camel b ↔ stems a = stems b := by
  rw [← pascal_eq_iff]
  constructor
  · intro h
    rw [pascal_eq_withFirst, h, ← pascal_eq_withFirst]
  · intro h
    rw [camel_eq_withFirst, h, ← camel_eq_withFirst]

/-- A number runs on behind the word before it, whatever mark stands between them. -/
example : stems "order-item 2nd" = stems "OrderItem2nd" := by decide

/-- Camel case is made of letters and digits. -/
theorem isWordSign_of_mem_camel {name : Text} {s : Sign} (h : s ∈ camel name) :
    isWordSign s = true := by
  have hsmall {word : Text} (hword : word ∈ words name) :
      ∀ s ∈ small word, isWordSign s = true := by
    intro s hs
    exact isWordSign_of_isSmallSign ((isSmallWord_small hword).small s hs)
  have hcapital {word : Text} (hword : word ∈ words name) :
      ∀ s ∈ capitalize word, isWordSign s = true := by
    intro s hs
    obtain ⟨c, cs, rfl⟩ := List.exists_cons_of_ne_nil (ne_nil_of_mem_words hword)
    rcases List.mem_cons.1 hs with rfl | hs
    · exact isWordSign_toUpper (isWordSign_of_mem_words hword c List.mem_cons_self)
    · exact hsmall hword s (List.mem_cons_of_mem _ hs)
  rw [camel] at h
  cases hwords : words name with
  | nil => simp [hwords, camelOf] at h
  | cons word rest =>
    rw [hwords, camelOf, List.mem_append, List.mem_flatten] at h
    rcases h with h | ⟨piece, hpiece, h⟩
    · exact hsmall (by simp [hwords]) s h
    · obtain ⟨own, hown, rfl⟩ := List.mem_map.1 hpiece
      exact hcapital (by simp [hwords, hown]) s h

end NodeForge.Naming
