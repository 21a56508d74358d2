import Mathlib.Data.List.Chain
import NodeForge.Proofs.Naming.Stems

/-!
# Names that camel case leaves as they are

Camel case is applied to names that may be in camel case already. A name stays as it is exactly if
it consists of letters and digits, does not begin with a capital, and each of its capitals begins a
word (`camel_eq_self_iff`). A name that was folded once need not be like that: the capitals of two
words run together where the first of them is a single letter, as in `a b c`, which becomes `aBC`
and then `aBc`. Folding a second time settles a name (`camel_camel_camel`). Folding a field name
again leaves it as it is exactly if no two words run together (`camel_field_eq_iff`).
-/

namespace NodeForge.Naming

/-! ### Letter cases of single signs -/

theorem toLower_eq_self_iff {s : Sign} (h : isWordSign s = true) :
    s.mapChar Char.toLower = s ↔ isCapitalSign s = false :=
  forall_wordSign (P := fun s => s.mapChar Char.toLower = s ↔ isCapitalSign s = false)
    (by decide) h

theorem toUpper_of_isCapitalSign {s : Sign} (h : isWordSign s = true)
    (hcapital : isCapitalSign s = true) : s.mapChar Char.toUpper = s :=
  forall_wordSign (P := fun s => isCapitalSign s = true → s.mapChar Char.toUpper = s)
    (by decide) h hcapital

theorem isCapitalSign_of_isBoundary {c d : Sign} {rest : Text} (hd : isWordSign d = true)
    (h : isBoundary c (d :: rest) = true) : isCapitalSign d = true := by
  rw [isBoundary, hd] at h
  simp only [Bool.not_true, Bool.false_or, Bool.or_eq_true, Bool.and_eq_true] at h
  rcases h with ⟨-, hcapital⟩ | ⟨⟨-, hcapital⟩, -⟩
  · exact hcapital
  · exact hcapital

theorem isSmallSign_or_isCapitalSign {s : Sign} (h : isWordSign s = true) :
    (isSmallSign s || isCapitalSign s) = true :=
  forall_wordSign (P := fun s => isWordSign s = true → (isSmallSign s || isCapitalSign s) = true)
    (by decide) h h

/-- A sign in capitals is no small letter. -/
theorem not_small_toUpper {s : Sign} (h : isSmallSign s = true) :
    (s.mapChar Char.toUpper).meets Letter.isAsciiSmall = false :=
  forall_wordSign (P := fun s => (s.mapChar Char.toUpper).meets Letter.isAsciiSmall = false)
    (by decide) (isWordSign_of_isSmallSign h)

/-! ### The letters of words -/

/-- The words hold the letters and digits of a name. -/
theorem flatten_words (name : Text) : (words name).flatten = name.filter isWordSign := by
  induction name with
  | nil => rfl
  | cons c cs ih =>
    rw [words, List.filter_cons]
    cases isWordSign c with
    | false => exact ih
    | true =>
      rw [← ih]
      cases isBoundary c cs with
      | true => rfl
      | false => cases words cs <;> rfl

/-- Whether words are in camel case. -/
def AreCamel : List Text → Prop
  | [] => True
  | head :: rest => small head = head ∧ ∀ word ∈ rest, capitalize word = word

@[simp] theorem length_capitalize (word : Text) : (capitalize word).length = word.length := by
  cases word <;> simp [capitalize]

theorem flatten_map_capitalize_iff {row : List Text} :
    (row.map capitalize).flatten = row.flatten ↔ ∀ word ∈ row, capitalize word = word := by
  induction row with
  | nil => simp
  | cons word rest ih =>
    rw [List.map_cons, List.flatten_cons, List.flatten_cons, List.forall_mem_cons, ← ih]
    exact List.append_eq_append_iff_of_size_eq_left (length_capitalize word)

theorem camelOf_eq_flatten_iff {row : List Text} : camelOf row = row.flatten ↔ AreCamel row := by
  cases row with
  | nil => simp [camelOf, AreCamel]
  | cons head rest =>
    rw [camelOf, AreCamel, List.flatten_cons, ← flatten_map_capitalize_iff]
    exact List.append_eq_append_iff_of_size_eq_left (List.length_map _)

/-! ### Capitals -/

/-- Whether every capital of a text that follows another sign begins a word. -/
def capitalsBegin : Text → Bool
  | [] => true
  | c :: cs => (!Text.firstMeets Letter.isAsciiCapital cs || isBoundary c cs) && capitalsBegin cs

theorem words_ne_nil {c : Sign} (cs : Text) (hc : isWordSign c = true) : words (c :: cs) ≠ [] := by
  rw [words, hc]
  split
  · exact absurd ‹_› (by simp)
  · split
    · exact List.cons_ne_nil _ _
    · split <;> exact List.cons_ne_nil _ _

/-- The words of a text, read from its first sign on: the first word as small or as capitalized, and
all others as capitalized. -/
theorem areCamel_words_iff {c : Sign} {cs : Text} (h : ∀ s ∈ c :: cs, isWordSign s = true) :
    (AreCamel (words (c :: cs)) ↔ c.mapChar Char.toLower = c ∧ capitalsBegin (c :: cs) = true) ∧
      ((∀ word ∈ words (c :: cs), capitalize word = word) ↔
        c.mapChar Char.toUpper = c ∧ capitalsBegin (c :: cs) = true) := by
  induction cs generalizing c with
  | nil =>
    have hc := h c List.mem_cons_self
    have hwords : words [c] = [[c]] := by simp [words, hc, isBoundary]
    simp [hwords, AreCamel, small, capitalize, capitalsBegin, Text.firstMeets]
  | cons d rest ih =>
    have hc := h c List.mem_cons_self
    have hd : isWordSign d = true := h d (by simp)
    obtain ⟨hcamel, hcapital⟩ := ih fun s hs => h s (List.mem_cons_of_mem _ hs)
    have hbegin : capitalsBegin (c :: d :: rest) =
        ((!isCapitalSign d || isBoundary c (d :: rest)) && capitalsBegin (d :: rest)) := rfl
    have hnot : (!isWordSign c) = false := by rw [hc]; rfl
    cases hboundary : isBoundary c (d :: rest) with
    | true =>
      have hwords : words (c :: d :: rest) = [c] :: words (d :: rest) := by
        rw [words, hnot, hboundary]
        rfl
      have hupper := toUpper_of_isCapitalSign hd (isCapitalSign_of_isBoundary hd hboundary)
      rw [hbegin, hboundary, Bool.or_true, Bool.true_and, hwords, AreCamel, List.forall_mem_cons,
        hcapital]
      simp [small, capitalize, hupper]
    | false =>
      obtain ⟨word, others, hrest⟩ := List.exists_cons_of_ne_nil (words_ne_nil rest hd)
      have hwords : words (c :: d :: rest) = (c :: word) :: others := by
        rw [words, hnot, hboundary, hrest]
        rfl
      rw [hrest, AreCamel, toLower_eq_self_iff hd] at hcamel
      rw [hbegin, hboundary, Bool.or_false, Bool.and_eq_true, Bool.not_eq_true', ← hcamel, hwords,
        AreCamel, List.forall_mem_cons]
      simp [small, capitalize, and_assoc]

/-- **Names in camel case.** -/
theorem camel_eq_self_iff {name : Text} :
    camel name = name ↔ (∀ s ∈ name, isWordSign s = true) ∧
      Text.firstMeets Letter.isAsciiCapital name = false ∧ capitalsBegin name = true := by
  by_cases hname : ∀ s ∈ name, isWordSign s = true
  · have hflatten : (words name).flatten = name := by
      rw [flatten_words, List.filter_eq_self.2 hname]
    rw [and_iff_right hname]
    have hcamel : camel name = name ↔ AreCamel (words name) := by
      rw [← camelOf_eq_flatten_iff, hflatten]
      rfl
    rw [hcamel]
    cases name with
    | nil => simp [AreCamel, Text.firstMeets, capitalsBegin]
    | cons c cs =>
      rw [(areCamel_words_iff hname).1, toLower_eq_self_iff (hname c List.mem_cons_self)]
      rfl
  · refine iff_of_false (fun heq => hname fun s hs => ?_) fun h => hname h.1
    rw [← heq] at hs
    exact isWordSign_of_mem_camel hs

/-! ### Folded names -/

/-- The capitals inside a text of pieces are those at the joints, if no piece has any but its
first. -/
theorem capitalsBegin_append {piece rest : Text} (hne : piece ≠ [])
    (hpiece : ∀ s ∈ piece.tail, isCapitalSign s = false) :
    capitalsBegin (piece ++ rest) =
      ((!Text.firstMeets Letter.isAsciiCapital rest || isBoundary (piece.getLast hne) rest) &&
        capitalsBegin rest) := by
  induction piece with
  | nil => exact absurd rfl hne
  | cons c cs ih =>
    cases cs with
    | nil => rfl
    | cons d ds =>
      have hd : Text.firstMeets Letter.isAsciiCapital (d :: ds ++ rest) = false :=
        hpiece d List.mem_cons_self
      rw [List.cons_append, capitalsBegin, hd, Bool.not_false, Bool.true_or, Bool.true_and,
        ih (List.cons_ne_nil d ds) fun s hs => hpiece s (List.mem_cons_of_mem _ hs),
        List.getLast_cons (List.cons_ne_nil d ds)]

/-- Whether two small words that follow each other can be told apart by their capitals: the first
one ends with a small letter or a digit once it is capitalized, or the second one begins with a
digit or has a letter in its second place. -/
def StayApart (word next : Text) : Prop :=
  2 ≤ word.length ∨ Text.firstMeets Char.isDigit word = true ∨
    Text.firstMeets Char.isDigit next = true ∨ startsSmall next.tail = true

theorem tail_capitalize {word : Text} (h : IsSmallWord word) :
    (capitalize word).tail = word.tail := by
  obtain ⟨c, cs, rfl⟩ := List.exists_cons_of_ne_nil h.ne_nil
  rw [capitalize, List.tail_cons, List.tail_cons]
  refine (List.map_congr_left fun s hs => ?_).trans (List.map_id cs)
  exact toLower_of_isSmallSign (h.small s (List.mem_cons_of_mem _ hs))

theorem capitalize_ne_nil {word : Text} (h : IsSmallWord word) : capitalize word ≠ [] := by
  rw [← List.length_pos_iff, length_capitalize, List.length_pos_iff]
  exact h.ne_nil

theorem startsSmall_append {tail : Text} {row : List Text}
    (hrow : ∀ word ∈ row, IsSmallWord word) :
    startsSmall (tail ++ (row.map capitalize).flatten) = startsSmall tail := by
  cases tail with
  | cons e es => rfl
  | nil =>
    cases row with
    | nil => rfl
    | cons word rest =>
      have hword := hrow word List.mem_cons_self
      obtain ⟨c, cs, rfl⟩ := List.exists_cons_of_ne_nil hword.ne_nil
      exact not_small_toUpper (hword.small c List.mem_cons_self)

/-- Where a word ends with `c`, the capital of the next one begins a word, if it has one. -/
theorem begins_capitalize_iff {c : Sign} (hc : isWordSign c = true) {next : Text}
    (hnext : IsSmallWord next) {row : List Text} (hrow : ∀ word ∈ row, IsSmallWord word) :
    (!Text.firstMeets Letter.isAsciiCapital (capitalize next ++ (row.map capitalize).flatten) ||
        isBoundary c (capitalize next ++ (row.map capitalize).flatten)) = true ↔
      isSmallSign c = true ∨ Text.firstMeets Char.isDigit next = true ∨
        startsSmall next.tail = true := by
  obtain ⟨d, ds, rfl⟩ := List.exists_cons_of_ne_nil hnext.ne_nil
  have hd : isSmallSign d = true := hnext.small d List.mem_cons_self
  have htail : ds.map (Sign.mapChar Char.toLower) = ds := tail_capitalize hnext
  have hupper := toUpper_of_isSmallSign hd
  rw [capitalize, htail, List.cons_append]
  show (!isCapitalSign (d.mapChar Char.toUpper) || _) = true ↔
    isSmallSign c = true ∨ d.meets Char.isDigit = true ∨ startsSmall ds = true
  cases hdigit : d.meets Char.isDigit with
  | true =>
    rw [hdigit, if_pos rfl] at hupper
    rw [hupper, not_isCapitalSign hd]
    simp
  | false =>
    rw [hdigit, if_neg Bool.false_ne_true] at hupper
    have hword : isWordSign (d.mapChar Char.toUpper) = true :=
      isWordSign_toUpper (isWordSign_of_isSmallSign hd)
    have hkind := isSmallSign_or_isCapitalSign hc
    have hcapital : (d.mapChar Char.toUpper).meets Letter.isAsciiCapital = true := hupper
    rw [hupper, isBoundary, hword, hcapital, startsSmall_append hrow]
    show (_ || isSmallSign c && true || isCapitalSign c && true && startsSmall ds) = true ↔ _
    cases hsmall : isSmallSign c with
    | true => simp
    | false =>
      rw [hsmall, Bool.false_or] at hkind
      simp [hkind]

theorem isWordSign_of_mem_capitalize {word : Text} (h : IsSmallWord word) {s : Sign}
    (hs : s ∈ capitalize word) : isWordSign s = true := by
  obtain ⟨c, cs, rfl⟩ := List.exists_cons_of_ne_nil h.ne_nil
  have htail := tail_capitalize h
  rcases List.mem_cons.1 hs with rfl | hs
  · exact isWordSign_toUpper (isWordSign_of_isSmallSign (h.small c List.mem_cons_self))
  · rw [capitalize, List.tail_cons] at htail
    rw [htail] at hs
    exact isWordSign_of_isSmallSign (h.small s (List.mem_cons_of_mem _ hs))

/-- A capitalized word ends with a small letter or a digit, unless it is a single letter. -/
theorem isSmallSign_getLast_iff {word : Text} (h : IsSmallWord word) :
    isSmallSign ((capitalize word).getLast (capitalize_ne_nil h)) = true ↔
      2 ≤ word.length ∨ Text.firstMeets Char.isDigit word = true := by
  obtain ⟨c, cs, rfl⟩ := List.exists_cons_of_ne_nil h.ne_nil
  have htail : cs.map (Sign.mapChar Char.toLower) = cs := tail_capitalize h
  simp only [capitalize, htail]
  cases cs with
  | nil =>
    have hupper := toUpper_of_isSmallSign (h.small c List.mem_cons_self)
    show isSmallSign (c.mapChar Char.toUpper) = true ↔ 2 ≤ 1 ∨ c.meets Char.isDigit = true
    cases hdigit : c.meets Char.isDigit with
    | true =>
      rw [hdigit, if_pos rfl] at hupper
      rw [hupper]
      simp [h.small c List.mem_cons_self]
    | false =>
      rw [hdigit, if_neg Bool.false_ne_true] at hupper
      refine iff_of_false (fun hsmall => ?_) (by simp)
      rw [not_isCapitalSign hsmall] at hupper
      exact Bool.false_ne_true hupper
  | cons e es =>
    rw [List.getLast_cons (List.cons_ne_nil e es)]
    refine iff_of_true (h.small _ (List.mem_cons_of_mem _ (List.getLast_mem _))) (Or.inl ?_)
    simp

/-- The capitals of capitalized words begin words exactly if the words stay apart. -/
theorem capitalsBegin_flatten_iff {row : List Text} (hrow : ∀ word ∈ row, IsSmallWord word) :
    capitalsBegin (row.map capitalize).flatten = true ↔ row.IsChain StayApart := by
  induction row with
  | nil => simp [capitalsBegin]
  | cons word rest ih =>
    have hword := hrow word List.mem_cons_self
    have hrest : ∀ next ∈ rest, IsSmallWord next := fun w hw => hrow w (List.mem_cons_of_mem _ hw)
    have hsmall : ∀ s ∈ (capitalize word).tail, isCapitalSign s = false := by
      rw [tail_capitalize hword]
      exact fun s hs => not_isCapitalSign (hword.small s (List.mem_of_mem_tail hs))
    rw [List.map_cons, List.flatten_cons, capitalsBegin_append (capitalize_ne_nil hword) hsmall,
      Bool.and_eq_true, ih hrest]
    cases rest with
    | nil => simp [Text.firstMeets]
    | cons next others =>
      have hlast := isWordSign_of_mem_capitalize hword
        (List.getLast_mem (capitalize_ne_nil hword))
      rw [List.isChain_cons_cons, List.map_cons, List.flatten_cons,
        begins_capitalize_iff hlast (hrest next List.mem_cons_self) fun w hw =>
          hrest w (List.mem_cons_of_mem _ hw),
        isSmallSign_getLast_iff hword, or_assoc, StayApart]

/-- The small words of a name that come after its first one. -/
def laterWords (name : Text) : List Text := (words name).tail.map small

/-- **Folded names.** The camel case of a name is left as it is exactly if its later words stay
apart. -/
theorem camel_camel_eq_iff {name : Text} :
    camel (camel name) = camel name ↔ (laterWords name).IsChain StayApart := by
  rw [camel_eq_self_iff, and_iff_right fun s hs => isWordSign_of_mem_camel hs, camel, laterWords]
  cases hwords : words name with
  | nil => simp [camelOf, Text.firstMeets, capitalsBegin]
  | cons head rest =>
    have hhead : IsSmallWord (small head) := isSmallWord_small (hwords ▸ List.mem_cons_self)
    have hrest : ∀ word ∈ rest.map small, IsSmallWord word := by
      intro word hword
      obtain ⟨own, hown, rfl⟩ := List.mem_map.1 hword
      exact isSmallWord_small (hwords ▸ List.mem_cons_of_mem _ hown)
    have hcapitalized : rest.map capitalize = (rest.map small).map capitalize := by
      rw [List.map_map]
      exact List.map_congr_left fun word hword =>
        (capitalize_small (isWordSign_of_mem_words (hwords ▸ List.mem_cons_of_mem _ hword))).symm
    have hfirst : Text.firstMeets Letter.isAsciiCapital
        (small head ++ ((rest.map small).map capitalize).flatten) = false := by
      obtain ⟨c, cs, hcons⟩ := List.exists_cons_of_ne_nil hhead.ne_nil
      rw [hcons]
      exact not_isCapitalSign (hhead.small c (hcons ▸ List.mem_cons_self))
    have hlast := hhead.small _ (List.getLast_mem hhead.ne_nil)
    rw [camelOf, hcapitalized, and_iff_right hfirst, capitalsBegin_append hhead.ne_nil fun s hs =>
        not_isCapitalSign (hhead.small s (List.mem_of_mem_tail hs)),
      Bool.and_eq_true, capitalsBegin_flatten_iff hrest, List.tail_cons]
    refine and_iff_right ?_
    -- the first word ends with a small letter or a digit, so nothing runs together with it
    cases hrow : rest.map small with
    | nil => rfl
    | cons next others =>
      rw [hrow] at hrest
      rw [List.map_cons, List.flatten_cons]
      exact (begins_capitalize_iff (isWordSign_of_isSmallSign hlast)
        (hrest next List.mem_cons_self) fun w hw => hrest w (List.mem_cons_of_mem _ hw)).2
        (Or.inl hlast)

/-! ### Names of letters and digits alone -/

theorem exists_words_cons {c : Sign} (cs : Text) (hc : isWordSign c = true) :
    ∃ word others, words (c :: cs) = (c :: word) :: others := by
  rw [words, hc]
  cases isBoundary c cs with
  | true => exact ⟨[], words cs, rfl⟩
  | false =>
    cases words cs with
    | nil => exact ⟨[], [], rfl⟩
    | cons word others => exact ⟨word, others, rfl⟩

/-- Whether a word that follows another one without a sign between them begins with a capital that
tells them apart. -/
def BeginsAnew (word next : Text) : Prop :=
  Text.firstMeets Letter.isAsciiCapital next = true ∧
    (2 ≤ word.length ∨ (∀ s ∈ word, isSmallSign s = true) ∨ startsSmall next.tail = true)

/-- Where a capital is followed by a small letter, the word goes on. -/
theorem startsSmall_of_words {d : Sign} {rest word : Text} {others : List Text}
    (hd : isWordSign d = true) (hrest : startsSmall rest = true)
    (h : words (d :: rest) = (d :: word) :: others) : startsSmall word = true := by
  obtain ⟨e, es, rfl⟩ : ∃ e es, rest = e :: es := by
    cases rest with
    | nil => exact absurd hrest Bool.false_ne_true
    | cons e es => exact ⟨e, es, rfl⟩
  have hsmall : isSmallSign e = true := by
    rw [isSmallSign, Bool.or_eq_true]
    exact Or.inl hrest
  have he := isWordSign_of_isSmallSign hsmall
  have hboundary : isBoundary d (e :: es) = false := by
    by_contra hnot
    have hcapital := isCapitalSign_of_isBoundary he (Bool.not_eq_false _ ▸ hnot)
    rw [not_isCapitalSign hsmall] at hcapital
    exact Bool.false_ne_true hcapital
  obtain ⟨own, behind, hown⟩ := exists_words_cons es he
  rw [words, hd, hboundary, hown] at h
  obtain ⟨rfl, -⟩ : e :: own = word ∧ behind = others := by simpa using h
  exact hrest

/-- Without other signs between them, words begin with capitals that tell them apart. -/
theorem isChain_words {name : Text} (h : ∀ s ∈ name, isWordSign s = true) :
    (words name).IsChain BeginsAnew := by
  induction name with
  | nil => exact .nil
  | cons c cs ih =>
    have hc := h c List.mem_cons_self
    have hrow := ih fun s hs => h s (List.mem_cons_of_mem _ hs)
    cases cs with
    | nil =>
      have hwords : words [c] = [[c]] := by simp [words, hc, isBoundary]
      rw [hwords]
      exact .singleton _
    | cons d rest =>
      have hd : isWordSign d = true := h d (by simp)
      obtain ⟨word, others, hrest⟩ := exists_words_cons rest hd
      rw [words, hc, hrest]
      rw [hrest] at hrow
      cases hboundary : isBoundary c (d :: rest) with
      | true =>
        refine List.isChain_cons_cons.2 ⟨⟨isCapitalSign_of_isBoundary hd hboundary, ?_⟩, hrow⟩
        rw [isBoundary, hd] at hboundary
        simp only [Bool.not_true, Bool.false_or, Bool.or_eq_true, Bool.and_eq_true] at hboundary
        rcases hboundary with ⟨hsmall, -⟩ | ⟨-, hsmall⟩
        · refine Or.inr (Or.inl fun s hs => ?_)
          rw [List.mem_singleton.1 hs, isSmallSign, Bool.or_eq_true]
          exact hsmall
        · exact Or.inr (Or.inr (startsSmall_of_words hd hsmall hrest))
      | false =>
        -- the first word has become longer, and it was not empty before
        cases others with
        | nil => exact .singleton _
        | cons next behind =>
          obtain ⟨⟨hcapital, -⟩, hbehind⟩ := List.isChain_cons_cons.1 hrow
          exact List.isChain_cons_cons.2 ⟨⟨hcapital, Or.inl (by simp)⟩, hbehind⟩

theorem stayApart_small {word next : Text}
    (hcapital : Text.firstMeets Letter.isAsciiCapital word = true) (h : BeginsAnew word next) :
    StayApart (small word) (small next) := by
  rcases h.2 with hlong | hsmall | hnext
  · exact Or.inl ((List.length_map _).symm ▸ hlong)
  · -- a word that begins with a capital is not all small
    cases word with
    | nil => exact absurd hcapital Bool.false_ne_true
    | cons c cs =>
      have hnot := not_isCapitalSign (hsmall c List.mem_cons_self)
      exact absurd (hcapital.symm.trans hnot) (by decide)
  · refine Or.inr (Or.inr (Or.inr ?_))
    rw [small, ← List.map_tail]
    cases htail : next.tail with
    | nil =>
      rw [htail] at hnext
      exact absurd hnext Bool.false_ne_true
    | cons e es =>
      rw [htail] at hnext
      have he : isSmallSign e = true := by
        rw [isSmallSign, Bool.or_eq_true]
        exact Or.inl hnext
      rw [List.map_cons, toLower_of_isSmallSign he]
      exact hnext

theorem isChain_map_small {head : Text} {rest : List Text}
    (h : (head :: rest).IsChain BeginsAnew) : (rest.map small).IsChain StayApart := by
  induction rest generalizing head with
  | nil => exact .nil
  | cons word others ih =>
    obtain ⟨hhead, hrest⟩ := List.isChain_cons_cons.1 h
    cases others with
    | nil => exact .singleton _
    | cons next behind =>
      have hword := (List.isChain_cons_cons.1 hrest).1
      exact List.isChain_cons_cons.2 ⟨stayApart_small hhead.1 hword, ih hrest⟩

/-- **Folding twice is enough.** A name of letters and digits alone is settled once it is folded. -/
theorem camel_camel_of_isWordSign {name : Text} (h : ∀ s ∈ name, isWordSign s = true) :
    camel (camel name) = camel name := by
  rw [camel_camel_eq_iff, laterWords]
  have hchain := isChain_words h
  cases hwords : words name with
  | nil => exact .nil
  | cons head rest => exact isChain_map_small (hwords ▸ hchain)

theorem camel_camel_camel (name : Text) : camel (camel (camel name)) = camel (camel name) :=
  camel_camel_of_isWordSign fun _ hs => isWordSign_of_mem_camel hs

/-! ### Field names -/

theorem camel_eq_nil_iff {name : Text} : camel name = [] ↔ words name = [] := by
  rw [camel]
  cases hwords : words name with
  | nil => simp [camelOf]
  | cons head rest =>
    have hhead := isSmallWord_small (hwords ▸ List.mem_cons_self : head ∈ words name)
    simp [camelOf, hhead.ne_nil]

/-- **Field names.** The name of a field is left as it is by camel case exactly if it has words and
its later words stay apart. -/
theorem camel_field_eq_iff {name : Text} :
    camel (field name) = field name ↔
      (words name = [] → name = []) ∧ (laterWords name).IsChain StayApart := by
  cases hwords : words name with
  | nil =>
    have hcamel : camel name = [] := camel_eq_nil_iff.2 hwords
    have hfield : field name = name := by
      rw [field, hcamel]
      rfl
    have hlater : laterWords name = [] := by
      rw [laterWords, hwords]
      rfl
    rw [hfield, hcamel, hlater]
    simp [eq_comm]
  | cons head rest =>
    have hcamel : (camel name).isEmpty = false := by
      rw [List.isEmpty_eq_false_iff, ne_eq, camel_eq_nil_iff, hwords]
      exact List.cons_ne_nil head rest
    have hfield : field name = camel name := by
      rw [field, hcamel]
      rfl
    rw [hfield, camel_camel_eq_iff]
    simp

end NodeForge.Naming
