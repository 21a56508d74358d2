import NodeForge.Naming.OperationId
import NodeForge.OpenApi.Context
import NodeForge.Proofs.Naming.Plural
import NodeForge.Proofs.Text.Rows

/-!
# Taking a tag out of an id

The operations of a tag are often called after it: a verb, and then the tag as it is or in the
plural. The resource of a tag is its singular in small letters, and the resource with its plurals is
taken out of the ids again. In an id of a verb and words in capitals that leaves the verb and those
words that are no form of the resource (`withoutResource_append`). So nothing but the verb is left
exactly if the tag is one word, and none of the few whose singular has other plurals
(`isReduced_of_tag`).
-/

namespace NodeForge.Naming

/-! ### Letters -/

/-- Whether a text is made of small ASCII letters. -/
def IsSmallText (text : Text) : Prop := ∀ s ∈ text, s.meets Letter.isAsciiSmall = true

/-- Whether a text is made of ASCII letters. -/
def IsLetters (text : Text) : Prop :=
  ∀ s ∈ text, s.meets Letter.isAsciiSmall = true ∨ isCapitalSign s = true

instance (text : Text) : Decidable (IsSmallText text) :=
  inferInstanceAs (Decidable (∀ s ∈ text, s.meets Letter.isAsciiSmall = true))

instance (text : Text) : Decidable (IsLetters text) :=
  inferInstanceAs (Decidable (∀ s ∈ text, s.meets Letter.isAsciiSmall = true ∨
    isCapitalSign s = true))

/-- Whether a word has a capital in front and small letters behind it. -/
structure IsTitle (word : Text) : Prop where
  capital : Text.firstMeets Letter.isAsciiCapital word = true
  small : IsSmallText word.tail

section Letters

variable {s : Sign} {text a b x y : Text}

theorem isSmallSign_of_small (h : s.meets Letter.isAsciiSmall = true) : isSmallSign s = true := by
  rw [isSmallSign, h, Bool.true_or]

theorem not_small_of_capital (h : isCapitalSign s = true) :
    s.meets Letter.isAsciiSmall = false := by
  cases hs : s.meets Letter.isAsciiSmall with
  | false => rfl
  | true =>
    rw [not_isCapitalSign (isSmallSign_of_small hs)] at h
    cases h

theorem isWordSign_of_isCapitalSign (h : isCapitalSign s = true) : isWordSign s = true := by
  cases s with
  | half k => cases h
  | char c =>
    have hupper : c.isUpper = true := h
    have hword : ((c.isUpper || c.isLower) || c.isDigit) = true := by
      rw [hupper, Bool.true_or, Bool.true_or]
    exact hword

theorem IsTitle.exists_cons (h : IsTitle text) :
    ∃ c cs, text = c :: cs ∧ isCapitalSign c = true ∧ IsSmallText cs := by
  cases text with
  | nil => cases h.capital
  | cons c cs => exact ⟨c, cs, rfl, h.capital, h.small⟩

/-- Two texts that are the same begin with the same stretch of small letters. -/
theorem eq_of_append_eq_append (ha : IsSmallText a) (hb : IsSmallText b)
    (hx : startsSmall x = false) (hy : startsSmall y = false) (h : a ++ x = b ++ y) : a = b := by
  have hstretch {front rest : Text} (hfront : IsSmallText front)
      (hrest : startsSmall rest = false) :
      (front ++ rest).takeWhile (fun s => s.meets Letter.isAsciiSmall) = front := by
    rw [List.takeWhile_append_of_pos hfront]
    cases rest with
    | nil => simp
    | cons d ds =>
      have hd : d.meets Letter.isAsciiSmall = false := hrest
      rw [List.takeWhile_cons, hd, if_neg Bool.false_ne_true, List.append_nil]
  rw [← hstretch ha hx, h, hstretch hb hy]

theorem startsSmall_flatten {row : List Text} (h : ∀ word ∈ row, IsTitle word) :
    startsSmall row.flatten = false := by
  cases row with
  | nil => rfl
  | cons word rest =>
    obtain ⟨c, cs, rfl, hc, -⟩ := (h word List.mem_cons_self).exists_cons
    exact not_small_of_capital hc

end Letters

/-! ### Removing words -/

section Removing

variable {token word front rest : Text}

theorem removeFrom_length (token passed rest : Text) :
    removeFrom token passed.length (passed ++ rest) = removeFrom token 0 rest := by
  induction passed with
  | nil => rfl
  | cons c cs ih => exact ih

/-- Nothing is removed from small letters. -/
theorem removeFrom_append_of_small (htoken : IsTitle token) (hfront : IsSmallText front) :
    removeFrom token 0 (front ++ rest) = front ++ removeFrom token 0 rest := by
  obtain ⟨d, ds, rfl, hd, -⟩ := htoken.exists_cons
  induction front with
  | nil => rfl
  | cons c cs ih =>
    have hc : c.meets Letter.isAsciiSmall = true := hfront c List.mem_cons_self
    have hne : (d == c) = false := by
      rw [beq_eq_false_iff_ne]
      rintro rfl
      rw [not_small_of_capital hd] at hc
      cases hc
    have hno : (d :: ds).isPrefixOf (c :: (cs ++ rest)) = false := by
      rw [List.isPrefixOf, hne, Bool.false_and]
    rw [List.cons_append, removeFrom, hno, Bool.false_and, if_neg Bool.false_ne_true,
      ih fun s hs => hfront s (List.mem_cons_of_mem _ hs)]
    rfl

/-- A word is removed if it is the token, and else it stays, even if it begins with the token. -/
theorem removeFrom_append_of_title (htoken : IsTitle token) (hword : IsTitle word)
    (hrest : startsSmall rest = false) : removeFrom token 0 (word ++ rest) =
      (if word = token then [] else word) ++ removeFrom token 0 rest := by
  obtain ⟨c, cs, rfl, hc, hcs⟩ := hword.exists_cons
  by_cases heq : c :: cs = token
  · subst heq
    have hyes : (c :: cs).isPrefixOf (c :: (cs ++ rest)) = true :=
      List.isPrefixOf_iff_prefix.2 (List.prefix_append _ _)
    have hdrop : (c :: (cs ++ rest)).drop (c :: cs).length = rest := List.drop_left' rfl
    rw [if_pos rfl, List.cons_append, removeFrom, hyes, hdrop, hrest]
    exact removeFrom_length _ cs rest
  · have hno : ((token.isPrefixOf (c :: (cs ++ rest)) &&
        !startsSmall ((c :: (cs ++ rest)).drop token.length)) = true) → False := by
      intro h
      rw [Bool.and_eq_true, Bool.not_eq_true', List.isPrefixOf_iff_prefix] at h
      obtain ⟨⟨behind, hbegins⟩, hbehind⟩ := h
      obtain ⟨d, ds, rfl, -, hds⟩ := htoken.exists_cons
      rw [← hbegins, List.drop_left] at hbehind
      rw [List.cons_append, List.cons.injEq] at hbegins
      exact heq (by rw [hbegins.1, eq_of_append_eq_append hds hcs hbehind hrest hbegins.2])
    rw [if_neg heq, List.cons_append, removeFrom, if_neg hno,
      removeFrom_append_of_small htoken hcs]
    rfl

/-- Removing a word from a row of words leaves the other ones. -/
theorem removeWord_append_flatten (htoken : IsTitle token) (hfront : IsSmallText front)
    {row : List Text} (hrow : ∀ word ∈ row, IsTitle word) :
    removeWord token (front ++ row.flatten) =
      front ++ (row.filter fun word => word ≠ token).flatten := by
  rw [removeWord, removeFrom_append_of_small htoken hfront, List.append_right_inj]
  induction row with
  | nil => rfl
  | cons word others ih =>
    have hothers : ∀ word ∈ others, IsTitle word := fun w hw => hrow w (List.mem_cons_of_mem _ hw)
    rw [List.flatten_cons, removeFrom_append_of_title htoken (hrow word List.mem_cons_self)
      (startsSmall_flatten hothers), ih hothers, List.filter_cons]
    by_cases heq : word = token
    · simp [heq]
    · simp [heq]

theorem foldl_removeWord {tokens row : List Text} (htokens : ∀ token ∈ tokens, IsTitle token)
    (hfront : IsSmallText front) (hrow : ∀ word ∈ row, IsTitle word) :
    tokens.foldl (fun text token => removeWord token text) (front ++ row.flatten) =
      front ++ (row.filter fun word => word ∉ tokens).flatten := by
  induction tokens generalizing row with
  | nil => simp
  | cons token others ih =>
    rw [List.foldl_cons, removeWord_append_flatten (htokens token List.mem_cons_self) hfront hrow,
      ih (fun t ht => htokens t (List.mem_cons_of_mem _ ht))
        fun w hw => hrow w (List.mem_of_mem_filter hw), List.filter_filter]
    refine congrArg (fun row : List Text => front ++ row.flatten) (List.filter_congr fun w _ => ?_)
    simp [Bool.and_comm]

/-- A stretch of small letters in front of a text is no other word in small letters. -/
theorem removeLeading_append (htoken : IsSmallText token) (hfront : IsSmallText front)
    (hrest : startsSmall rest = false) (hne : token ≠ front) :
    removeLeading token (front ++ rest) = front ++ rest := by
  rw [removeLeading, if_neg]
  intro h
  rw [Bool.and_eq_true, Bool.not_eq_true', List.isPrefixOf_iff_prefix] at h
  obtain ⟨⟨behind, hbegins⟩, hbehind⟩ := h
  rw [← hbegins, List.drop_left] at hbehind
  exact hne (eq_of_append_eq_append htoken hfront hbehind hrest hbegins)

theorem foldl_removeLeading {tokens : List Text} (htokens : ∀ token ∈ tokens, IsSmallText token)
    (hfront : IsSmallText front) (hrest : startsSmall rest = false) (hmem : front ∉ tokens) :
    tokens.foldl (fun text token => removeLeading token text) (front ++ rest) = front ++ rest := by
  induction tokens with
  | nil => rfl
  | cons token others ih =>
    rw [List.mem_cons, not_or] at hmem
    rw [List.foldl_cons, removeLeading_append (htokens token List.mem_cons_self) hfront hrest
      (Ne.symm hmem.1)]
    exact ih (fun t ht => htokens t (List.mem_cons_of_mem _ ht)) hmem.2

end Removing

/-! ### Forms in capitals -/

section Forms

variable {word form text : Text}

theorem IsSmallText.isLetters (h : IsSmallText text) : IsLetters text :=
  fun s hs => Or.inl (h s hs)

theorem IsSmallText.isWordSign (h : IsSmallText text) : ∀ s ∈ text, isWordSign s = true :=
  fun s hs => isWordSign_of_isSmallSign (isSmallSign_of_small (h s hs))

theorem IsSmallText.small_eq (h : IsSmallText text) : small text = text := by
  refine (List.map_congr_left fun s hs => ?_).trans (List.map_id _)
  exact toLower_of_isSmallSign (isSmallSign_of_small (h s hs))

theorem IsLetters.isWordSign (h : IsLetters text) : ∀ s ∈ text, isWordSign s = true := by
  intro s hs
  rcases h s hs with hsmall | hcapital
  · exact isWordSign_of_isSmallSign (isSmallSign_of_small hsmall)
  · exact isWordSign_of_isCapitalSign hcapital

theorem isSmallText_small (h : IsLetters text) : IsSmallText (small text) := by
  intro s hs
  obtain ⟨c, hc, rfl⟩ := List.mem_map.1 hs
  exact forall_wordSign (P := fun c =>
    (c.meets Letter.isAsciiSmall = true ∨ isCapitalSign c = true) →
      (c.mapChar Char.toLower).meets Letter.isAsciiSmall = true) (by decide)
    (h.isWordSign c hc) (h c hc)

theorem isTitle_capitalize (h : IsLetters word) (hne : word ≠ []) : IsTitle (capitalize word) := by
  obtain ⟨c, cs, rfl⟩ := List.exists_cons_of_ne_nil hne
  constructor
  · exact forall_wordSign (P := fun c =>
      (c.meets Letter.isAsciiSmall = true ∨ isCapitalSign c = true) →
        isCapitalSign (c.mapChar Char.toUpper) = true) (by decide)
      (h.isWordSign c List.mem_cons_self) (h c List.mem_cons_self)
  · exact isSmallText_small fun s hs => h s (List.mem_cons_of_mem _ hs)

/-- What follows a word in small letters stays as it is when the word is capitalized. -/
theorem capitalize_append_of_small (hne : word ≠ []) (htext : IsSmallText text) :
    capitalize (word ++ text) = capitalize word ++ text := by
  obtain ⟨c, cs, rfl⟩ := List.exists_cons_of_ne_nil hne
  have hsmall : text.map (Sign.mapChar Char.toLower) = text := htext.small_eq
  rw [List.cons_append, capitalize, capitalize, List.map_append, hsmall]
  rfl

theorem mem_pluralForms_iff : form ∈ pluralForms word ++ [word] ↔ form = word ∨
    form = word ++ "s" ∨ form = word ++ "es" ∨
      Text.endsWith "y" word = true ∧ form = word.dropLast ++ "ies" := by
  cases hy : Text.endsWith "y" word with
  | true =>
    simp only [pluralForms, hy, if_pos, List.mem_append, List.mem_cons, List.not_mem_nil]
    tauto
  | false =>
    simp only [pluralForms, hy, Bool.false_eq_true, if_false, List.mem_append, List.mem_cons,
      List.not_mem_nil]
    tauto

/-- A capitalized word ends with a `y` if the word does and that is not all of it. -/
theorem exists_stem_of_endsWith (hword : IsSmallText word) (hne : word ≠ [])
    (h : Text.endsWith "y" (capitalize word) = true) :
    ∃ stem, stem ≠ [] ∧ word = stem ++ Text.ofString "y" := by
  obtain rfl | ⟨stem, d, rfl⟩ := word.eq_nil_or_concat
  · exact absurd rfl hne
  rw [List.concat_eq_append] at *
  have hd : IsSmallText [d] := fun s hs => hword s (List.mem_append_right _ hs)
  by_cases hstem : stem = []
  · subst hstem
    have hcapital := (isTitle_capitalize hd.isLetters hne).capital
    have hy : Text.endsWith "y" ([] ++ [d.mapChar Char.toUpper]) = true := h
    have heq : Sign.char 'y' = d.mapChar Char.toUpper := by
      rw [← beq_iff_eq, ← endsWith_singleton _ _ []]
      exact hy
    have hletter : isCapitalSign (d.mapChar Char.toUpper) = true := hcapital
    rw [← heq] at hletter
    exact absurd hletter (by decide)
  · rw [capitalize_append_of_small hstem hd] at h
    have heq : Sign.char 'y' = d := by
      rw [← beq_iff_eq, ← endsWith_singleton _ _ (capitalize stem)]
      exact h
    exact ⟨stem, hstem, by rw [← heq]; rfl⟩

/-- **Forms in capitals.** The forms of a capitalized word are its forms, capitalized. -/
theorem mem_pluralForms_capitalize_iff (hword : IsSmallText word) (hne : word ≠ []) :
    form ∈ pluralForms (capitalize word) ++ [capitalize word] ↔
      ∃ own, IsForm word own ∧ form = capitalize own := by
  have hs : IsSmallText "s" := by decide
  have hes : IsSmallText "es" := by decide
  have hies : IsSmallText "ies" := by decide
  have hy : IsSmallText "y" := by decide
  have hends {stem : Text} (hstem : stem ≠ []) : capitalize (stem ++ Text.ofString "y") =
      capitalize stem ++ [Sign.char 'y'] := capitalize_append_of_small hstem hy
  rw [mem_pluralForms_iff]
  constructor
  · rintro (rfl | rfl | rfl | ⟨hy, rfl⟩)
    · exact ⟨word, .self hne, rfl⟩
    · exact ⟨_, .s hne, (capitalize_append_of_small hne hs).symm⟩
    · exact ⟨_, .es hne, (capitalize_append_of_small hne hes).symm⟩
    · obtain ⟨stem, hstem, rfl⟩ := exists_stem_of_endsWith hword hne hy
      refine ⟨_, .ies hstem, ?_⟩
      rw [hends hstem, List.dropLast_concat, capitalize_append_of_small hstem hies]
  · rintro ⟨own, h, rfl⟩
    cases h with
    | self => exact Or.inl rfl
    | s => exact Or.inr (Or.inl (capitalize_append_of_small hne hs))
    | es => exact Or.inr (Or.inr (Or.inl (capitalize_append_of_small hne hes)))
    | @ies stem hstem =>
      refine Or.inr (Or.inr (Or.inr ?_))
      rw [hends hstem, List.dropLast_concat, capitalize_append_of_small hstem hies]
      exact ⟨endsWith_iff.2 ⟨_, rfl⟩, rfl⟩

theorem IsForm.isSmallText (h : IsForm word form) (hword : IsSmallText word) :
    IsSmallText form := by
  cases h with
  | self => exact hword
  | s => exact List.forall_mem_append.2 ⟨hword, by decide⟩
  | es => exact List.forall_mem_append.2 ⟨hword, by decide⟩
  | ies => exact List.forall_mem_append.2 ⟨(List.forall_mem_append.1 hword).1, by decide⟩

theorem isTitle_of_mem_pluralForms (hword : IsSmallText word) (hne : word ≠ [])
    (h : form ∈ pluralForms (capitalize word) ++ [capitalize word]) : IsTitle form := by
  obtain ⟨own, hown, rfl⟩ := (mem_pluralForms_capitalize_iff hword hne).1 h
  refine isTitle_capitalize (hown.isSmallText hword).isLetters ?_
  rintro rfl
  exact hne (List.length_eq_zero_iff.1 (Nat.le_zero.1 hown.length_le))

theorem isSmallText_of_mem_pluralForms (hword : IsSmallText word)
    (h : form ∈ pluralForms word ++ [word]) : IsSmallText form := by
  rcases mem_pluralForms_iff.1 h with rfl | rfl | rfl | ⟨-, rfl⟩
  · exact hword
  · exact List.forall_mem_append.2 ⟨hword, by decide⟩
  · exact List.forall_mem_append.2 ⟨hword, by decide⟩
  · exact List.forall_mem_append.2 ⟨fun s hs => hword s (List.dropLast_subset _ hs), by decide⟩

/-- A word in any case is among the forms in capitals if it is a form in small letters. -/
theorem capitalize_mem_pluralForms_iff (hword : IsSmallText word) (hne : word ≠ [])
    (htext : IsLetters text) :
    capitalize text ∈ pluralForms (capitalize word) ++ [capitalize word] ↔
      IsForm word (small text) := by
  rw [mem_pluralForms_capitalize_iff hword hne]
  constructor
  · rintro ⟨own, hown, heq⟩
    have hsmall := hown.isSmallText hword
    rw [← small_capitalize htext.isWordSign, heq, small_capitalize hsmall.isWordSign,
      hsmall.small_eq]
    exact hown
  · intro h
    exact ⟨_, h, (capitalize_small htext.isWordSign).symm⟩

end Forms

/-! ### Words and tags -/

section Tags

variable {single word tag text : Text}

/-- Where nothing begins a new word, a text is one word. -/
theorem words_eq_singleton {c : Sign} {cs : Text} (hword : ∀ s ∈ c :: cs, isWordSign s = true)
    (h : ∀ front d rest, c :: cs = front ++ d :: rest → rest ≠ [] → isBoundary d rest = false) :
    words (c :: cs) = [c :: cs] := by
  have hc : (!isWordSign c) = false := by rw [hword c List.mem_cons_self]; rfl
  induction cs generalizing c with
  | nil =>
    rw [words, hc]
    rfl
  | cons d ds ih =>
    have hinner := ih (fun s hs => hword s (List.mem_cons_of_mem _ hs))
      (fun front e rest heq => h (c :: front) e rest (congrArg _ heq))
      (by rw [hword d (by simp)]; rfl)
    rw [words, hc, h [] c (d :: ds) rfl (List.cons_ne_nil _ _), hinner]
    rfl

/-- No new word begins with a small letter. -/
theorem words_of_small_tail (htag : IsLetters tag) (hne : tag ≠ [])
    (htail : IsSmallText tag.tail) : words tag = [tag] := by
  obtain ⟨c, cs, rfl⟩ := List.exists_cons_of_ne_nil hne
  refine words_eq_singleton htag.isWordSign fun front d rest heq hrest => ?_
  obtain ⟨e, es, rfl⟩ := List.exists_cons_of_ne_nil hrest
  have he : e.meets Letter.isAsciiSmall = true := by
    refine htail e ?_
    cases front with
    | nil => simp [(List.cons.inj heq).2]
    | cons f fs => simp [(List.cons.inj heq).2]
  have hsign := isSmallSign_of_small he
  have hcapital : e.meets Letter.isAsciiCapital = false := not_isCapitalSign hsign
  rw [isBoundary, isWordSign_of_isSmallSign hsign, hcapital]
  simp

/-- A word in capitals is one word. -/
theorem words_of_capitals (hne : tag ≠ []) (htag : ∀ s ∈ tag, isCapitalSign s = true) :
    words tag = [tag] := by
  obtain ⟨c, cs, rfl⟩ := List.exists_cons_of_ne_nil hne
  refine words_eq_singleton (fun s hs => isWordSign_of_isCapitalSign (htag s hs))
    fun front d rest heq hrest => ?_
  rw [heq] at htag
  have hd : isSmallSign d = false := by
    rw [← Bool.not_eq_true]
    intro hsmall
    have hcapital := htag d (by simp)
    rw [not_isCapitalSign hsmall] at hcapital
    cases hcapital
  obtain ⟨e, es, rfl⟩ := List.exists_cons_of_ne_nil hrest
  have hes : startsSmall es = false := by
    cases es with
    | nil => rfl
    | cons f fs => exact not_small_of_capital (htag f (by simp))
  rw [isBoundary, isWordSign_of_isCapitalSign (htag e (by simp)), hes]
  change (false || isSmallSign d && _ || _) = false
  rw [hd]
  simp

theorem IsSingular.isSmallText (h : IsSingular single word) (hword : IsSmallText word) :
    IsSmallText single := by
  cases h with
  | listed hmem =>
    have hall : ∀ e ∈ irregularSingulars, ∀ s ∈ e.2, s.meets Letter.isAsciiSmall = true := by
      decide
    exact hall _ hmem
  | ies => exact List.forall_mem_append.2 ⟨(List.forall_mem_append.1 hword).1, by decide⟩
  | es => exact (List.forall_mem_append.1 hword).1
  | s => exact (List.forall_mem_append.1 hword).1
  | self => exact hword

/-- Letters and digits in small letters, whatever stands before them. -/
theorem lowerAfter_eq_small (before : Text) (h : ∀ s ∈ text, isWordSign s = true) :
    Text.lowerAfter before text = small text := by
  induction text generalizing before with
  | nil => rfl
  | cons c cs ih =>
    have hc := forall_wordSign (P := fun c => c ≠ 'Σ' ∧
      c.expand Letter.toSmall = [c.mapChar Char.toLower]) (by decide) (h c List.mem_cons_self)
    rw [Text.lowerAfter, if_neg hc.1, hc.2, ih _ fun s hs => h s (List.mem_cons_of_mem _ hs)]
    rfl

theorem lower_eq_small (h : ∀ s ∈ text, isWordSign s = true) : Text.lower text = small text :=
  lowerAfter_eq_small [] h

theorem trim_of_isWordSign (h : ∀ s ∈ text, isWordSign s = true) : Text.trim text = text := by
  have hblank : ∀ s ∈ text, ¬ Text.isBlank s = true := fun s hs =>
    forall_wordSign (P := fun s => isWordSign s = true → ¬ Text.isBlank s = true) (by decide)
      (h s hs) (h s hs)
  have hdrop {row : Text} (hrow : ∀ s ∈ row, ¬ Text.isBlank s = true) :
      row.dropWhile Text.isBlank = row := by
    cases row with
    | nil => rfl
    | cons c cs => exact List.dropWhile_cons_of_neg (hrow c List.mem_cons_self)
  rw [Text.trim, Rows.trimWhere, hdrop hblank, Rows.trimEndWhere,
    hdrop fun s hs => hblank s (List.mem_reverse.1 hs), List.reverse_reverse]

theorem isSmallText_singularOf (h : IsLetters tag) : IsSmallText (singularOf (small tag)) :=
  (isSingular_singularOf _).isSmallText (isSmallText_small h)

/-- The words of a tag hold all of its letters. -/
theorem IsLetters.flatten_words (h : IsLetters tag) : (words tag).flatten = tag := by
  rw [Naming.flatten_words, List.filter_eq_self.2 h.isWordSign]

/-- The resource of a tag of letters is its singular in small letters. -/
theorem resourceOf_eq (h : IsLetters tag) : OpenApi.resourceOf tag = singularOf (small tag) := by
  have hsingle := isSmallText_singularOf h
  have hspace : Sign.char ' ' ∉ tag := by
    intro hmem
    exact absurd (h.isWordSign _ hmem) (by decide)
  rw [OpenApi.resourceOf, trim_of_isWordSign h.isWordSign, singular,
    Rows.cutAtLast_of_notMem hspace]
  dsimp only
  rw [lower_eq_small h.isWordSign, List.nil_append]
  split
  · -- the capital in front comes and goes
    cases hcons : singularOf (small tag) with
    | nil => rfl
    | cons c cs =>
      rw [hcons] at hsingle
      have hc := hsingle.isWordSign c List.mem_cons_self
      have hupper : c.expand Letter.toCapital = [c.mapChar Char.toUpper] :=
        forall_wordSign (P := fun c => c.expand Letter.toCapital = [c.mapChar Char.toUpper])
          (by decide) hc
      have htitle : Text.upperFirst (c :: cs) = c.mapChar Char.toUpper :: cs := by
        rw [Text.upperFirst, hupper]
        rfl
      rw [htitle, lower_eq_small, small, List.map_cons, toLower_toUpper hc]
      · exact hsingle.small_eq
      · intro s hs
        rcases List.mem_cons.1 hs with rfl | hs
        · exact isWordSign_toUpper hc
        · exact hsingle.isWordSign s (List.mem_cons_of_mem _ hs)
  · rw [lower_eq_small hsingle.isWordSign, hsingle.small_eq]

end Tags

/-! ### Ids of tags -/

section Reduced

variable {resource front tag verb : Text} {row : List Text}

/-- Of words in capitals those are among the forms of a capitalized resource that are its forms in
small letters. -/
theorem filter_map_capitalize (hresource : IsSmallText resource) (hne : resource ≠ [])
    (hrow : ∀ word ∈ row, IsLetters word ∧ word ≠ []) :
    (row.map capitalize).filter (fun word =>
        word ∉ pluralForms (capitalize resource) ++ [capitalize resource]) =
      (row.filter fun word => ¬ IsForm resource (small word)).map capitalize := by
  rw [List.filter_map]
  refine congrArg (List.map capitalize) (List.filter_congr fun word hword => ?_)
  rw [Function.comp_apply, decide_eq_decide,
    capitalize_mem_pluralForms_iff hresource hne (hrow word hword).1]

/-- What is taken out of an id that consists of small letters and words in capitals: the words that
are forms of the resource. -/
theorem withoutResource_append (hresource : IsSmallText resource) (hfront : IsSmallText front)
    (hrow : ∀ word ∈ row, IsLetters word ∧ word ≠ [])
    (hmem : front ∉ pluralForms resource ++ [resource]) :
    withoutResource resource (front ++ (row.map capitalize).flatten) =
      front ++
        ((row.filter fun word => ¬ IsForm resource (small word)).map capitalize).flatten := by
  by_cases hne : resource = []
  · subst hne
    -- without a resource nothing is taken out, and there are no forms of it
    have hall : row.filter (fun word => ¬ IsForm [] (small word)) = row :=
      List.filter_eq_self.2 fun word _ => decide_eq_true fun h => h.ne_nil rfl
    rw [hall]
    rfl
  -- the resource is one word, in Pascal case and in camel case as well
  have hwords : words resource = [resource] := words_of_small_tail hresource.isLetters hne
    fun s hs => hresource s (List.mem_of_mem_tail hs)
  have hpascal : ([resource].map capitalize).flatten = capitalize resource := List.append_nil _
  have hcamel : camelOf [resource] = resource := by
    rw [camelOf, hresource.small_eq]
    exact List.append_nil _
  have htitle := isTitle_capitalize hresource.isLetters hne
  have hempty : (capitalize resource).isEmpty = false := by
    obtain ⟨c, cs, hcons, -, -⟩ := htitle.exists_cons
    rw [hcons]
    rfl
  have htitles : ∀ word ∈ row.map capitalize, IsTitle word := by
    intro word hword
    obtain ⟨own, hown, rfl⟩ := List.mem_map.1 hword
    exact isTitle_capitalize (hrow own hown).1 (hrow own hown).2
  have hfilter := filter_map_capitalize hresource hne hrow
  have hrest : startsSmall ((row.filter fun word =>
      ¬ IsForm resource (small word)).map capitalize).flatten = false := by
    rw [← hfilter]
    exact startsSmall_flatten fun word hword => htitles word (List.mem_of_mem_filter hword)
  rw [withoutResource, hwords]
  dsimp only
  rw [hpascal, hcamel, hempty, if_neg Bool.false_ne_true,
    foldl_removeWord (fun _ => isTitle_of_mem_pluralForms hresource hne) hfront htitles, hfilter,
    foldl_removeLeading (fun _ => isSmallText_of_mem_pluralForms hresource) hfront hrest hmem]

/-- The words of a tag in camel case stay, since its resource is in small letters throughout. -/
example : withoutResource (OpenApi.resourceOf "petStore") "getPetStore" =
    Text.ofString "getPetStore" := by decide

/-- Whether the id made of a verb and the name of its tag is reduced to the verb where it can be. -/
structure IsReduced (tag verb : Text) : Prop where
  /-- Of the words of the tag those are left that are no form of the resource. -/
  left : withoutResource (OpenApi.resourceOf tag) (verb ++ pascal tag) =
    verb ++ (((words tag).filter fun word =>
      ¬ IsForm (OpenApi.resourceOf tag) (small word)).map capitalize).flatten
  /-- Only the verb is left exactly if the tag is a single word, and not one of the few whose
  singular has other plurals. -/
  verb_iff : withoutResource (OpenApi.resourceOf tag) (verb ++ pascal tag) = verb ↔
    (words tag).length ≤ 1 ∧ small tag ∉ withoutForm
  /-- A tag in small letters, with or without a capital in front, and a tag in capitals are single
  words, so for them it is only the few exceptions that count. -/
  usual : IsSmallText tag.tail ∨ (∀ s ∈ tag, isCapitalSign s = true) →
    (withoutResource (OpenApi.resourceOf tag) (verb ++ pascal tag) = verb ↔
      small tag ∉ withoutForm)

/-- Nothing of a tag is left exactly if all its words are forms of its resource. -/
theorem left_eq_verb_iff : verb ++ (((words tag).filter fun word =>
      ¬ IsForm resource (small word)).map capitalize).flatten = verb ↔
    ∀ word ∈ words tag, IsForm resource (small word) := by
  rw [List.append_right_eq_self, List.flatten_eq_nil_iff]
  constructor
  · intro h word hword
    by_contra hno
    have hmem : capitalize word ∈ ((words tag).filter fun word =>
        ¬ IsForm resource (small word)).map capitalize :=
      List.mem_map.2 ⟨word, List.mem_filter.2 ⟨hword, decide_eq_true hno⟩, rfl⟩
    have hlength := length_capitalize word
    rw [h _ hmem] at hlength
    exact ne_nil_of_mem_words hword (List.length_eq_zero_iff.1 hlength.symm)
  · intro h piece hpiece
    obtain ⟨word, hword, -⟩ := List.mem_map.1 hpiece
    obtain ⟨hword, hno⟩ := List.mem_filter.1 hword
    exact absurd (h word hword) (of_decide_eq_true hno)

/-- All words of a tag are forms of its singular only if there is just one. -/
theorem forall_isForm_words_iff (htag : IsLetters tag) :
    (∀ word ∈ words tag, IsForm (singularOf (small tag)) (small word)) ↔
      (words tag).length ≤ 1 ∧ small tag ∉ withoutForm := by
  have hflatten := htag.flatten_words
  cases hwords : words tag with
  | nil =>
    rw [hwords] at hflatten
    rw [← hflatten]
    exact iff_of_true (by simp) (by decide)
  | cons first others =>
    rw [hwords, List.flatten_cons] at hflatten
    cases others with
    | nil =>
      rw [List.flatten_nil, List.append_nil] at hflatten
      rw [hflatten]
      have hne : small tag ≠ [] := by
        intro hnil
        refine ne_nil_of_mem_words (hwords ▸ List.mem_cons_self : first ∈ words tag) ?_
        rw [hflatten]
        exact List.map_eq_nil_iff.1 hnil
      simp [isForm_singularOf_iff hne]
    | cons second rest =>
      have hsplit : small tag = small first ++ small second ++ small rest.flatten := by
        rw [← hflatten, List.flatten_cons, ← List.append_assoc]
        simp [small]
      refine iff_of_false (fun h => ?_) (by simp)
      have hsingular := isSingular_singularOf (small tag)
      rw [hsplit] at hsingular
      rw [hsplit] at h
      exact not_isForm_append hsingular (h first (by simp)) (h second (by simp))

/-- **Verbs and tags.** An id made of a verb in small letters and the name of its tag is reduced to
the verb if the tag is a single word, as long as its singular is not one of those that have other
plurals. -/
theorem isReduced_of_tag (htag : IsLetters tag) (hverb : IsSmallText verb)
    (hresource : verb ≠ OpenApi.resourceOf tag)
    (hplural : verb ∉ pluralForms (OpenApi.resourceOf tag)) : IsReduced tag verb := by
  have heq := resourceOf_eq htag
  have hsmall : IsSmallText (OpenApi.resourceOf tag) := by
    rw [heq]
    exact isSmallText_singularOf htag
  have hleft : withoutResource (OpenApi.resourceOf tag) (verb ++ pascal tag) =
      verb ++ (((words tag).filter fun word =>
        ¬ IsForm (OpenApi.resourceOf tag) (small word)).map capitalize).flatten := by
    refine withoutResource_append hsmall hverb (fun word hword => ⟨fun s hs => ?_, ?_⟩) ?_
    · refine htag s ?_
      rw [← htag.flatten_words]
      exact List.mem_flatten.2 ⟨word, hword, hs⟩
    · exact ne_nil_of_mem_words hword
    · rw [List.mem_append, List.mem_singleton, not_or]
      exact ⟨hplural, hresource⟩
  have hiff : withoutResource (OpenApi.resourceOf tag) (verb ++ pascal tag) = verb ↔
      (words tag).length ≤ 1 ∧ small tag ∉ withoutForm := by
    rw [hleft, left_eq_verb_iff, heq, forall_isForm_words_iff htag]
  refine ⟨hleft, hiff, fun hcase => ?_⟩
  have hsingle : (words tag).length ≤ 1 := by
    by_cases hne : tag = []
    · subst hne
      decide
    · rcases hcase with htail | hcapitals
      · rw [words_of_small_tail htag hne htail]
        exact Nat.le_refl 1
      · rw [words_of_capitals hne hcapitals]
        exact Nat.le_refl 1
  rw [hiff, and_iff_right hsingle]

end Reduced

theorem isReduced_berries : IsLetters "Berries" ∧ IsSmallText "pick" ∧
    Text.ofString "pick" ≠ OpenApi.resourceOf "Berries" ∧
    Text.ofString "pick" ∉ pluralForms (OpenApi.resourceOf "Berries") ∧
    IsReduced "Berries" "pick" := by
  have hletters : IsLetters "Berries" := by decide
  have hsmall : IsSmallText "pick" := by decide
  have hresource : Text.ofString "pick" ≠ OpenApi.resourceOf "Berries" := by decide
  have hplural : Text.ofString "pick" ∉ pluralForms (OpenApi.resourceOf "Berries") := by decide
  exact ⟨hletters, hsmall, hresource, hplural, isReduced_of_tag hletters hsmall hresource hplural⟩

/-- The tag `people` stays in the id of its operation, since the resource is called `person`. -/
theorem not_reduced_people : IsLetters "people" ∧ IsSmallText "create" ∧
    Text.ofString "create" ≠ OpenApi.resourceOf "people" ∧
    Text.ofString "create" ∉ pluralForms (OpenApi.resourceOf "people") ∧
    OpenApi.resourceOf "people" = "person" ∧
    Text.ofString "create" ++ pascal "people" = "createPeople" ∧
    withoutResource (OpenApi.resourceOf "people") ("create" ++ pascal "people") =
      "createPeople" ∧
    withoutResource (OpenApi.resourceOf "people") ("create" ++ pascal "people") ≠
      Text.ofString "create" := by
  decide

end NodeForge.Naming
