import NodeForge.Proofs.Naming.Refolding

/-!
# Words that are found again

A name is written in one of five styles: its words are rendered, and joined with a mark between them
or with none. Where a mark stands between the words, cutting the name gives back the words as they
were rendered, so no style makes a difference to what is written later. In camel and Pascal case
there is no mark, and the words are found again exactly if each one can be told from the one before
it (`words_write`).

All that is used of a rendered word is that it has letters and digits only, and no capital behind
its first sign (`IsPiece`). Such a word is never cut inside, so everything is decided at its end
(`words_append`).
-/

namespace NodeForge.Naming

/-! ### Styles -/

/-- The ways of writing the words of a name. -/
inductive Style where
  | camel
  | pascal
  | capital
  | snake
  | kebab
deriving Repr, DecidableEq

/-- The name in a style. -/
def Style.write : Style → Text → Text
  | .camel => Naming.camel
  | .pascal => Naming.pascal
  | .capital => Naming.capital
  | .snake => Naming.snake
  | .kebab => Naming.kebab

/-- The words as a style shows them. -/
def Style.rendered : Style → List Text → List Text
  | .camel, [] => []
  | .camel, head :: rest => small head :: rest.map capitalize
  | .pascal, row | .capital, row => row.map capitalize
  | .snake, row | .kebab, row => row.map small

/-- What a style puts between the words. -/
def Style.mark : Style → Text
  | .camel | .pascal => ""
  | .capital => " "
  | .snake => "_"
  | .kebab => "-"

theorem joined_nil (row : List Text) : Text.joined [] row = row.flatten := by
  induction row with
  | nil => rfl
  | cons word rest ih =>
    rw [List.flatten_cons, ← ih]
    cases rest with
    | nil => rw [Text.joined, Text.joined, List.intercalate_singleton, List.intercalate_nil,
        List.append_nil]
    | cons next others => rw [Text.joined, List.intercalate_cons_cons, List.append_nil, Text.joined]

theorem Style.write_eq (style : Style) (name : Text) :
    style.write name = Text.joined style.mark (style.rendered (words name)) := by
  cases style with
  | camel =>
    rw [write, Naming.camel]
    cases words name with
    | nil => rfl
    | cons head rest => exact (joined_nil (small head :: rest.map capitalize)).symm
  | pascal => exact (joined_nil _).symm
  | _ => rfl

/-! ### Pieces -/

/-- Whether a text is written as a word is: it is made of letters and digits, and has no capital
behind its first sign. -/
structure IsPiece (piece : Text) : Prop where
  ne_nil : piece ≠ []
  signs : ∀ s ∈ piece, isWordSign s = true
  tail : ∀ s ∈ piece.tail, isCapitalSign s = false

theorem IsPiece.exists_cons {piece : Text} (h : IsPiece piece) :
    ∃ c cs, piece = c :: cs ∧ isWordSign c = true := by
  obtain ⟨c, cs, rfl⟩ := List.exists_cons_of_ne_nil h.ne_nil
  exact ⟨c, cs, rfl, h.signs c List.mem_cons_self⟩

theorem IsSmallWord.isPiece {word : Text} (h : IsSmallWord word) : IsPiece word where
  ne_nil := h.ne_nil
  signs s hs := isWordSign_of_isSmallSign (h.small s hs)
  tail s hs := not_isCapitalSign (h.small s (List.mem_of_mem_tail hs))

theorem IsSmallWord.isPiece_capitalize {word : Text} (h : IsSmallWord word) :
    IsPiece (capitalize word) where
  ne_nil := capitalize_ne_nil h
  signs _ hs := isWordSign_of_mem_capitalize h hs
  tail := by
    rw [tail_capitalize h]
    exact h.isPiece.tail

theorem words_cons {c : Sign} (hc : isWordSign c = true) (cs : Text) :
    words (c :: cs) =
      if isBoundary c cs then [c] :: words cs
      else (c :: (words cs).headD []) :: (words cs).tail := by
  rw [words, hc]
  cases words cs <;> rfl

/-- A piece is not cut inside. Behind it a new word begins, or the first word there belongs to
it. -/
theorem words_append {piece : Text} (h : IsPiece piece) (rest : Text) :
    words (piece ++ rest) =
      if isBoundary (piece.getLast h.ne_nil) rest then piece :: words rest
      else (piece ++ (words rest).headD []) :: (words rest).tail := by
  induction piece with
  | nil => exact absurd rfl h.ne_nil
  | cons c cs ih =>
    have hc := h.signs c List.mem_cons_self
    cases cs with
    | nil => exact words_cons hc rest
    | cons d ds =>
      have hinside : isBoundary c (d :: (ds ++ rest)) = false := by
        by_contra hnot
        have hcapital := isCapitalSign_of_isBoundary (h.signs d (by simp))
          (Bool.not_eq_false _ ▸ hnot)
        rw [h.tail d List.mem_cons_self] at hcapital
        cases hcapital
      have htail : IsPiece (d :: ds) :=
        ⟨List.cons_ne_nil d ds, fun s hs => h.signs s (List.mem_cons_of_mem _ hs),
          fun s hs => h.tail s (List.mem_cons_of_mem _ hs)⟩
      rw [List.cons_append, List.cons_append, words_cons hc, hinside, if_neg Bool.false_ne_true,
        ← List.cons_append, ih htail, List.getLast_cons (List.cons_ne_nil d ds)]
      cases isBoundary ((d :: ds).getLast (List.cons_ne_nil d ds)) rest <;> rfl

theorem words_of_isPiece {piece : Text} (h : IsPiece piece) : words piece = [piece] := by
  have hwords := words_append h []
  rwa [List.append_nil] at hwords

/-! ### Words with a mark between them -/

theorem words_joined {mark : Sign} (hmark : isWordSign mark = false) {row : List Text}
    (hrow : ∀ piece ∈ row, IsPiece piece) : words (Text.joined [mark] row) = row := by
  induction row with
  | nil => rfl
  | cons piece rest ih =>
    have hpiece := hrow piece List.mem_cons_self
    cases rest with
    | nil =>
      rw [Text.joined, List.intercalate_singleton]
      exact words_of_isPiece hpiece
    | cons next others =>
      have hrest := ih fun p hp => hrow p (List.mem_cons_of_mem _ hp)
      rw [Text.joined, List.intercalate_cons_cons, List.append_assoc, List.singleton_append,
        words_append hpiece, isBoundary, hmark, words_cons_of_not hmark]
      exact congrArg _ hrest

/-! ### Words without a mark -/

/-- Whether a word can be told from the one before it without a mark between them: it begins with a
letter, and either the one before it ends in a small letter or a digit, or its second sign is a
letter too. -/
def AreToldApart (word next : Text) : Prop :=
  Text.firstMeets Char.isAlpha next = true ∧
    (word.getLast?.any isSmallSign = true ∨ Text.firstMeets Char.isAlpha next.tail = true)

instance (word next : Text) : Decidable (AreToldApart word next) := by
  unfold AreToldApart
  infer_instance

/-- Of a small word, a letter is a small letter. -/
theorem firstMeets_isAlpha_of_small {text : Text} (h : ∀ s ∈ text, isSmallSign s = true) :
    Text.firstMeets Char.isAlpha text = startsSmall text := by
  cases text with
  | nil => rfl
  | cons c cs =>
    have hc := h c List.mem_cons_self
    exact forall_wordSign (P := fun s => isSmallSign s = true →
      s.meets Char.isAlpha = s.meets Letter.isAsciiSmall) (by decide)
      (isWordSign_of_isSmallSign hc) hc

/-- A capitalized word begins with a letter if it begins with a capital, and else with a digit. -/
theorem firstMeets_isAlpha_capitalize {next : Text} (h : IsSmallWord next) :
    Text.firstMeets Char.isAlpha (capitalize next) =
        Text.firstMeets Letter.isAsciiCapital (capitalize next) ∧
      Text.firstMeets Char.isAlpha (capitalize next) = !Text.firstMeets Char.isDigit next := by
  obtain ⟨c, cs, rfl⟩ := List.exists_cons_of_ne_nil h.ne_nil
  have hc := h.small c List.mem_cons_self
  exact forall_wordSign (P := fun s => isSmallSign s = true →
    (s.mapChar Char.toUpper).meets Char.isAlpha =
        (s.mapChar Char.toUpper).meets Letter.isAsciiCapital ∧
      (s.mapChar Char.toUpper).meets Char.isAlpha = !s.meets Char.isDigit)
    (by decide) (isWordSign_of_isSmallSign hc) hc

/-- A new word begins behind a piece exactly if the capitalized word there can be told from it. -/
theorem isBoundary_flatten_iff {piece next : Text} (h : IsPiece piece) (hnext : IsSmallWord next)
    {row : List Text} (hrow : ∀ word ∈ row, IsSmallWord word) :
    isBoundary (piece.getLast h.ne_nil) (capitalize next ++ (row.map capitalize).flatten) = true ↔
      AreToldApart piece (capitalize next) := by
  have hlast := h.signs _ (List.getLast_mem h.ne_nil)
  have hbegins := begins_capitalize_iff hlast hnext hrow
  obtain ⟨hcapital, hdigit⟩ := firstMeets_isAlpha_capitalize hnext
  have hsecond := firstMeets_isAlpha_of_small fun s hs => hnext.small s (List.mem_of_mem_tail hs)
  obtain ⟨d, ds, hcons, hd⟩ := hnext.isPiece_capitalize.exists_cons
  have hfirst : Text.firstMeets Letter.isAsciiCapital
      (capitalize next ++ (row.map capitalize).flatten) =
        Text.firstMeets Char.isAlpha (capitalize next) := by
    rw [hcapital, hcons]
    rfl
  have hletter : isBoundary (piece.getLast h.ne_nil)
      (capitalize next ++ (row.map capitalize).flatten) = true →
        Text.firstMeets Char.isAlpha (capitalize next) = true := by
    rw [hcapital, hcons]
    exact isCapitalSign_of_isBoundary hd
  rw [hfirst, hdigit, Bool.not_not] at hbegins
  rw [AreToldApart, List.getLast?_eq_some_getLast h.ne_nil, Option.any_some, tail_capitalize hnext,
    hsecond, hdigit]
  cases hbegin : Text.firstMeets Char.isDigit next with
  | true =>
    -- a digit begins no word
    refine iff_of_false (fun hboundary => ?_) (by simp)
    have hnot := hletter hboundary
    rw [hdigit, hbegin] at hnot
    cases hnot
  | false =>
    rw [hbegin] at hbegins
    simpa using hbegins

/-- Without a mark, words are found again exactly if each one can be told from the one before. -/
theorem words_flatten_eq_iff {piece : Text} (h : IsPiece piece) {row : List Text}
    (hrow : ∀ word ∈ row, IsSmallWord word) :
    words (piece :: row.map capitalize).flatten = piece :: row.map capitalize ↔
      (piece :: row.map capitalize).IsChain AreToldApart := by
  induction row generalizing piece with
  | nil => simpa using words_of_isPiece h
  | cons next others ih =>
    have hnext := hrow next List.mem_cons_self
    have hothers : ∀ word ∈ others, IsSmallWord word := fun w hw =>
      hrow w (List.mem_cons_of_mem _ hw)
    have hrest := ih hnext.isPiece_capitalize hothers
    have hboundary := isBoundary_flatten_iff h hnext hothers
    rw [List.map_cons, List.isChain_cons_cons, ← hrest, ← hboundary, List.flatten_cons,
      words_append h, List.flatten_cons]
    split
    · next hyes => simp [hyes]
    · next hno =>
      -- what is found behind the piece belongs to it, and is not empty
      refine iff_of_false (fun heq => ?_) fun hboth => hno hboth.1
      obtain ⟨d, ds, hcons, hd⟩ := hnext.isPiece_capitalize.exists_cons
      obtain ⟨word, behind, hwords⟩ :=
        exists_words_cons (ds ++ (others.map capitalize).flatten) hd
      rw [hcons, List.cons_append, hwords, List.cons.injEq, List.headD_cons] at heq
      exact absurd heq.1 (by simp)

/-! ### Rendered words -/

theorem capitalize_capitalize {text word : Text} (h : word ∈ words text) :
    capitalize (capitalize word) = capitalize word := by
  have hsigns := isWordSign_of_mem_words h
  have hpiece := (isSmallWord_small h).isPiece_capitalize
  rw [capitalize_small hsigns] at hpiece
  rw [← capitalize_small hpiece.signs, small_capitalize hsigns, capitalize_small hsigns]

/-- The words of a name as a style shows them are pieces. -/
theorem Style.isPiece_of_mem_rendered {style : Style} {name piece : Text}
    (h : piece ∈ style.rendered (words name)) : IsPiece piece := by
  have hsmall {word : Text} (hword : word ∈ words name) : IsPiece (small word) :=
    (isSmallWord_small hword).isPiece
  have hcapital {word : Text} (hword : word ∈ words name) : IsPiece (capitalize word) := by
    rw [← capitalize_small (isWordSign_of_mem_words hword)]
    exact (isSmallWord_small hword).isPiece_capitalize
  cases style with
  | camel =>
    cases hwords : words name with
    | nil =>
      rw [hwords] at h
      cases h
    | cons head rest =>
      rw [hwords] at h
      rcases List.mem_cons.1 h with rfl | h
      · exact hsmall (hwords ▸ List.mem_cons_self)
      · obtain ⟨word, hword, rfl⟩ := List.mem_map.1 h
        exact hcapital (hwords ▸ List.mem_cons_of_mem _ hword)
  | pascal | capital =>
    obtain ⟨word, hword, rfl⟩ := List.mem_map.1 h
    exact hcapital hword
  | snake | kebab =>
    obtain ⟨word, hword, rfl⟩ := List.mem_map.1 h
    exact hsmall hword

/-- Rendering forgets how the words were rendered before. -/
theorem Style.rendered_map {render : Text → Text}
    (hrender : render = small ∨ render = capitalize) (style : Style) (name : Text) :
    style.rendered ((words name).map render) = style.rendered (words name) := by
  have hsmall : ∀ word ∈ words name, small (render word) = small word := by
    intro word hword
    have hsigns := isWordSign_of_mem_words hword
    rcases hrender with rfl | rfl
    · exact small_small hsigns
    · exact small_capitalize hsigns
  have hcapital : ∀ word ∈ words name, capitalize (render word) = capitalize word := by
    intro word hword
    rcases hrender with rfl | rfl
    · exact capitalize_small (isWordSign_of_mem_words hword)
    · exact capitalize_capitalize hword
  cases style with
  | camel =>
    cases hwords : words name with
    | nil => rfl
    | cons head rest =>
      rw [List.map_cons, rendered, rendered, List.map_map,
        hsmall head (hwords ▸ List.mem_cons_self)]
      exact congrArg _ (List.map_congr_left fun word hword =>
        hcapital word (hwords ▸ List.mem_cons_of_mem _ hword))
  | pascal | capital =>
    rw [rendered, rendered, List.map_map]
    exact List.map_congr_left hcapital
  | snake | kebab =>
    rw [rendered, rendered, List.map_map]
    exact List.map_congr_left hsmall

/-! ### Names in a style -/

/-- A name in a style with a mark has the same words, and is written in any style as before. -/
theorem Style.write_write {style : Style} {mark : Sign} (hstyle : style.mark = [mark])
    (hmark : isWordSign mark = false) {render : Text → Text}
    (hrender : render = small ∨ render = capitalize)
    (hrendered : ∀ row, style.rendered row = row.map render) (name : Text) :
    words (style.write name) = style.rendered (words name) ∧
      ∀ other : Style, other.write (style.write name) = other.write name := by
  have hwords : words (style.write name) = style.rendered (words name) := by
    rw [style.write_eq, hstyle]
    exact words_joined hmark fun piece hpiece => isPiece_of_mem_rendered hpiece
  refine ⟨hwords, fun other => ?_⟩
  rw [other.write_eq, hwords, hrendered, rendered_map hrender, ← other.write_eq]

/-- A name in a style without a mark, behind its first word. -/
theorem Style.words_write_iff {style : Style} (hstyle : style.mark = []) {name head : Text}
    {rest : List Text} (hwords : words name = head :: rest) {piece : Text}
    (hrendered : style.rendered (words name) = piece :: rest.map capitalize) :
    words (style.write name) = style.rendered (words name) ↔
      (style.rendered (words name)).IsChain AreToldApart := by
  have hpiece : IsPiece piece := isPiece_of_mem_rendered (hrendered ▸ List.mem_cons_self)
  have hmem : ∀ word ∈ rest, word ∈ words name := fun word hword =>
    hwords ▸ List.mem_cons_of_mem _ hword
  have hsmall : ∀ word ∈ rest.map small, IsSmallWord word := by
    intro word hword
    obtain ⟨own, hown, rfl⟩ := List.mem_map.1 hword
    exact isSmallWord_small (hmem own hown)
  have hcapitalized : rest.map capitalize = (rest.map small).map capitalize := by
    rw [List.map_map]
    exact List.map_congr_left fun word hword =>
      (capitalize_small (isWordSign_of_mem_words (hmem word hword))).symm
  rw [style.write_eq, hstyle, joined_nil, hrendered, hcapitalized]
  exact words_flatten_eq_iff hpiece hsmall

/-- **Words that are found again.** In the styles with a mark, the words of a name are found again
as they were rendered, and the name can be written in any style as before. In the styles without one
they are found again exactly if each can be told from the one before. -/
theorem words_write (name : Text) :
    (∀ style ∈ [Style.snake, Style.kebab, Style.capital],
      words (style.write name) = style.rendered (words name) ∧
        ∀ other : Style, other.write (style.write name) = other.write name) ∧
    ∀ style ∈ [Style.camel, Style.pascal],
      words (style.write name) = style.rendered (words name) ↔
        (style.rendered (words name)).IsChain AreToldApart := by
  constructor
  · intro style hstyle
    simp only [List.mem_cons, List.not_mem_nil, or_false] at hstyle
    rcases hstyle with rfl | rfl | rfl
    · exact Style.write_write rfl (by decide) (.inl rfl) (fun _ => rfl) name
    · exact Style.write_write rfl (by decide) (.inl rfl) (fun _ => rfl) name
    · exact Style.write_write rfl (by decide) (.inr rfl) (fun _ => rfl) name
  · intro style hstyle
    simp only [List.mem_cons, List.not_mem_nil, or_false] at hstyle
    cases hwords : words name with
    | nil =>
      rcases hstyle with rfl | rfl
      · simp [Style.write, camel, hwords, camelOf, Style.rendered]
      · simp [Style.write, pascal, hwords, Style.rendered]
    | cons head rest =>
      rw [← hwords]
      rcases hstyle with rfl | rfl
      · exact Style.words_write_iff rfl hwords (by rw [hwords]; rfl)
      · exact Style.words_write_iff rfl hwords (by rw [hwords]; rfl)

/-- A name with an acronym and with two single letters that follow each other. -/
def mixedName : Text := "planA_b HTTP2"

theorem words_write_mixedName :
    Style.kebab ∈ [Style.snake, Style.kebab, Style.capital] ∧
      Style.camel ∈ [Style.camel, Style.pascal] ∧
      (words (Style.kebab.write mixedName) = Style.kebab.rendered (words mixedName) ∧
        ∀ other : Style, other.write (Style.kebab.write mixedName) = other.write mixedName) ∧
      words (Style.camel.write mixedName) ≠ Style.camel.rendered (words mixedName) := by
  have hkebab : Style.kebab ∈ [Style.snake, Style.kebab, Style.capital] := by decide
  have hcamel : Style.camel ∈ [Style.camel, Style.pascal] := by decide
  -- in camel case, the single letters are read as one word
  have hnot : ¬ (Style.camel.rendered (words mixedName)).IsChain AreToldApart := by decide
  have hwrite := words_write mixedName
  exact ⟨hkebab, hcamel, hwrite.1 .kebab hkebab,
    fun hwords => hnot ((hwrite.2 .camel hcamel).1 hwords)⟩

end NodeForge.Naming
