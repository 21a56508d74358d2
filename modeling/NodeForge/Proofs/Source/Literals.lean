import NodeForge.Proofs.Outcome
import NodeForge.Proofs.Text.Rows
import NodeForge.Source.Files

/-!
# Free text in literals

Descriptions and summaries are written between single quotes. A text between single quotes is one
literal exactly if each of its own quotes is escaped, its last sign escapes nothing, and it holds
no line end (`isLiteral_singleQuoted_iff`). A quote is escaped by an odd number of backslashes in
front of it, since backslashes escape each other.

Text on one line gets one more backslash in front of each quote, whatever stands there already. So
it is a literal exactly if no quote was escaped before and no backslash is left over at the end
(`isLiteral_oneLine_iff`). Text for templates loses its quotes, and with them the need to escape
them. It is a literal exactly if no backslash is left over at the end and every carriage return
belongs to a line end (`isLiteral_forTemplate_iff`).
-/

namespace NodeForge.Source

open Prose

/-! ### Literals -/

/-- Reads a literal from behind its first quote, where `escaped` says whether a backslash stands in
front. The result is what stands behind the quote that ends the literal; there is none if a line
end comes before it. -/
def behindLiteral : (escaped : Bool) → Text → Option Text
  | _, [] => none
  | escaped, c :: cs =>
    if c = '\r' ∨ c = '\n' then none
    else if escaped then behindLiteral false cs
    else if c = '\\' then behindLiteral true cs
    else if c = '\'' then some cs
    else behindLiteral false cs

/-- Whether a text is one literal in single quotes, from its first sign to its last. -/
def isLiteral : Text → Bool
  | [] => false
  | c :: cs => c == Sign.char '\'' && behindLiteral false cs == some []

/-- The number of backslashes that a text ends with. -/
def backslashesAtEnd (text : Text) : Nat :=
  (text.reverse.takeWhile (· == Sign.char '\\')).length

/-- Whether a text can stand between single quotes. -/
structure IsQuotable (text : Text) : Prop where
  quotes : ∀ before behind, text = before ++ .char '\'' :: behind →
    backslashesAtEnd before % 2 = 1
  ending : backslashesAtEnd text % 2 = 0
  noReturn : Sign.char '\r' ∉ text
  noFeed : Sign.char '\n' ∉ text

/-- Whether no quote of a text is escaped, and nothing behind the text is. -/
structure IsUnescaped (text : Text) : Prop where
  quotes : ∀ before behind, text = before ++ .char '\'' :: behind →
    backslashesAtEnd before % 2 = 0
  ending : backslashesAtEnd text % 2 = 0

/-! ### Escapes -/

section Escapes

variable {wanted escaped : Bool} {c : Sign} {text cs : Text}

/-- Whether the sign behind `c` is escaped, where `escaped` says whether `c` is. -/
def escapes (escaped : Bool) (c : Sign) : Bool := c == Sign.char '\\' && !escaped

/-- Whether the sign behind a text is escaped, where `escaped` says whether its first one is. -/
def leavesEscaped (escaped : Bool) (text : Text) : Bool := text.foldl escapes escaped

@[simp] theorem leavesEscaped_nil : leavesEscaped escaped [] = escaped := rfl

@[simp] theorem leavesEscaped_cons :
    leavesEscaped escaped (c :: cs) = leavesEscaped (escapes escaped c) cs := rfl

theorem escapes_of_ne (h : c ≠ .char '\\') : escapes escaped c = false := by
  simp [escapes, h]

@[simp] theorem escapes_backslash : escapes escaped (.char '\\') = !escaped := by
  simp [escapes]

@[simp] theorem escapes_quote : escapes escaped (.char '\'') = false :=
  escapes_of_ne (by decide)

theorem backslashesAtEnd_concat (text : Text) (c : Sign) :
    backslashesAtEnd (text ++ [c]) =
      if c = .char '\\' then backslashesAtEnd text + 1 else 0 := by
  unfold backslashesAtEnd
  rw [List.reverse_append, List.reverse_singleton, List.singleton_append, List.takeWhile_cons]
  by_cases hc : c = .char '\\'
  · simp [hc]
  · simp [hc]

/-- Backslashes escape each other, so an odd number of them escapes what follows. -/
theorem leavesEscaped_eq (text : Text) :
    leavesEscaped false text = decide (backslashesAtEnd text % 2 = 1) := by
  induction text using List.reverseRecOn with
  | nil => rfl
  | append_singleton cs c ih =>
    have hlast : leavesEscaped false (cs ++ [c]) = escapes (leavesEscaped false cs) c := by
      rw [leavesEscaped, List.foldl_append]
      rfl
    rw [hlast, backslashesAtEnd_concat, ih]
    by_cases hc : c = .char '\\'
    · rw [if_pos hc, hc, escapes_backslash, ← decide_not, decide_eq_decide]
      omega
    · rw [if_neg hc, escapes_of_ne hc]
      rfl

/-- Whether each quote of a text is escaped or not as wanted. -/
def QuotesFit (wanted escaped : Bool) (text : Text) : Prop :=
  ∀ before behind, text = before ++ .char '\'' :: behind → leavesEscaped escaped before = wanted

@[simp] theorem quotesFit_nil : QuotesFit wanted escaped [] := by
  intro before behind h
  simp at h

@[simp] theorem quotesFit_cons : QuotesFit wanted escaped (c :: cs) ↔
    (c = .char '\'' → escaped = wanted) ∧ QuotesFit wanted (escapes escaped c) cs := by
  constructor
  · intro h
    refine ⟨fun hc => h [] cs (by rw [hc]; rfl), fun before behind hcs => ?_⟩
    exact h (c :: before) behind (by rw [hcs]; rfl)
  · rintro ⟨hc, hcs⟩ before behind h
    cases before with
    | nil =>
      rw [List.nil_append, List.cons.injEq] at h
      exact hc h.1
    | cons d before =>
      rw [List.cons_append, List.cons.injEq] at h
      rw [leavesEscaped_cons, ← h.1]
      exact hcs before behind h.2

theorem isUnescaped_iff :
    IsUnescaped text ↔ QuotesFit false false text ∧ leavesEscaped false text = false := by
  have hparity (n : Nat) : n % 2 = 0 ↔ ¬ n % 2 = 1 := by omega
  simp only [QuotesFit, leavesEscaped_eq, decide_eq_false_iff_not, ← hparity]
  exact ⟨fun h => ⟨h.quotes, h.ending⟩, fun h => ⟨h.1, h.2⟩⟩

theorem isQuotable_iff : IsQuotable text ↔
    QuotesFit true false text ∧ leavesEscaped false text = false ∧
      Sign.char '\r' ∉ text ∧ Sign.char '\n' ∉ text := by
  have hparity (n : Nat) : n % 2 = 0 ↔ ¬ n % 2 = 1 := by omega
  simp only [QuotesFit, leavesEscaped_eq, decide_eq_false_iff_not, decide_eq_true_eq, ← hparity]
  exact ⟨fun h => ⟨h.quotes, h.ending, h.noReturn, h.noFeed⟩,
    fun h => ⟨h.1, h.2.1, h.2.2.1, h.2.2.2⟩⟩

/-- A literal goes up to a quote behind some text if it does not end in the text and the quote is
not escaped. -/
theorem behindLiteral_eq_nil_iff (escaped : Bool) (text : Text) :
    behindLiteral escaped (text ++ [.char '\'']) = some [] ↔
      QuotesFit true escaped text ∧ leavesEscaped escaped text = false ∧
        Sign.char '\r' ∉ text ∧ Sign.char '\n' ∉ text := by
  induction text generalizing escaped with
  | nil => cases escaped <;> simp [behindLiteral]
  | cons c cs ih =>
    rw [List.cons_append, behindLiteral, quotesFit_cons, leavesEscaped_cons, List.mem_cons,
      List.mem_cons, not_or, not_or]
    by_cases hline : c = .char '\r' ∨ c = .char '\n'
    · rw [if_pos hline]
      rcases hline with rfl | rfl <;> simp
    · rw [if_neg hline]
      rw [not_or] at hline
      have hreturn : Sign.char '\r' ≠ c := Ne.symm hline.1
      have hfeed : Sign.char '\n' ≠ c := Ne.symm hline.2
      cases escaped with
      | true =>
        -- whatever stands behind a backslash escapes nothing
        have hnext : escapes true c = false := by simp [escapes]
        rw [if_pos rfl, ih, hnext]
        simp [hreturn, hfeed]
      | false =>
        rw [if_neg Bool.false_ne_true]
        by_cases hslash : c = .char '\\'
        · rw [if_pos hslash, ih, hslash]
          simp
        · rw [if_neg hslash]
          by_cases hquote : c = .char '\''
          · rw [if_pos hquote]
            simp [hquote]
          · rw [if_neg hquote, ih, escapes_of_ne hslash]
            simp [hreturn, hfeed, hquote]

/-- **Literals.** A text between single quotes is one literal exactly if it can stand there. -/
theorem isLiteral_singleQuoted_iff : isLiteral (singleQuoted text) = true ↔ IsQuotable text := by
  have hread : isLiteral (singleQuoted text) =
      (behindLiteral false (text ++ [.char '\'']) == some []) := rfl
  rw [hread, beq_iff_eq, behindLiteral_eq_nil_iff, isQuotable_iff]

end Escapes

/-! ### Text on one line -/

section OneLine

variable {wanted escaped inBlank : Bool} {c : Sign} {text : Text}

/-- A text with a backslash more in front of each quote. -/
def quotesEscaped (text : Text) : Text := Text.replace "'" "\\'" text

theorem quotesEscaped_eq (text : Text) : quotesEscaped text =
    text.flatMap fun c => if c = .char '\'' then [.char '\\', .char '\''] else [c] := by
  have hreplace : Rows.replace [Sign.char '\''] "\\'" text = _ := Rows.replace_singleton text
  simp only [beq_iff_eq] at hreplace
  exact hreplace

@[simp] theorem quotesEscaped_nil : quotesEscaped [] = [] := rfl

theorem quotesEscaped_cons (c : Sign) (cs : Text) : quotesEscaped (c :: cs) =
    (if c = .char '\'' then [.char '\\', .char '\''] else [c]) ++ quotesEscaped cs := by
  rw [quotesEscaped_eq, quotesEscaped_eq, List.flatMap_cons]

theorem quotesEscaped_append (a b : Text) :
    quotesEscaped (a ++ b) = quotesEscaped a ++ quotesEscaped b := by
  rw [quotesEscaped_eq, quotesEscaped_eq, quotesEscaped_eq, List.flatMap_append]

/-- One more backslash escapes the quotes that were not escaped. -/
theorem quotesFit_quotesEscaped (escaped : Bool) (text : Text) :
    QuotesFit true escaped (quotesEscaped text) ↔ QuotesFit false escaped text := by
  induction text generalizing escaped with
  | nil => simp
  | cons c cs ih =>
    rw [quotesEscaped_cons, quotesFit_cons]
    by_cases hc : c = .char '\''
    · simp [hc, ih]
    · rw [if_neg hc, List.singleton_append, quotesFit_cons, ih]
      simp [hc]

theorem leavesEscaped_quotesEscaped (escaped : Bool) (text : Text) :
    leavesEscaped escaped (quotesEscaped text) = leavesEscaped escaped text := by
  induction text generalizing escaped with
  | nil => rfl
  | cons c cs ih =>
    rw [quotesEscaped_cons, leavesEscaped_cons, ← ih]
    by_cases hc : c = .char '\''
    · simp [hc]
    · simp [hc]

theorem ne_of_isBlank {d : Char} (hd : Letter.isBlank d = false) (h : Text.isBlank c = true) :
    c ≠ .char d := by
  rintro rfl
  exact Bool.false_ne_true (hd.symm.trans h)

/-- White space escapes nothing and is no quote, so it makes no difference how much there is. -/
theorem quotesFit_collapseFrom (text : Text) (h : inBlank = true → escaped = false) :
    (QuotesFit wanted escaped (Text.collapseFrom inBlank text) ↔ QuotesFit wanted escaped text) ∧
      leavesEscaped escaped (Text.collapseFrom inBlank text) = leavesEscaped escaped text := by
  induction text generalizing escaped inBlank with
  | nil => exact ⟨Iff.rfl, rfl⟩
  | cons c cs ih =>
    rw [Text.collapseFrom]
    cases hc : Text.isBlank c with
    | true =>
      have hslash : escapes escaped c = false := escapes_of_ne (ne_of_isBlank (by decide) hc)
      have hquote : c ≠ .char '\'' := ne_of_isBlank (by decide) hc
      obtain ⟨hfit, hleaves⟩ := @ih false true fun _ => rfl
      rw [if_pos rfl, quotesFit_cons, leavesEscaped_cons, hslash]
      cases inBlank with
      | true =>
        rw [if_pos rfl, h rfl, hfit, hleaves]
        simp [hquote]
      | false =>
        have hspace : escapes escaped (.char ' ') = false := escapes_of_ne (by decide)
        rw [if_neg Bool.false_ne_true, quotesFit_cons, leavesEscaped_cons, hspace, hfit, hleaves]
        simp [hquote]
    | false =>
      obtain ⟨hfit, hleaves⟩ := @ih (escapes escaped c) false nofun
      rw [if_neg Bool.false_ne_true, quotesFit_cons, leavesEscaped_cons, quotesFit_cons,
        leavesEscaped_cons, hfit, hleaves]
      exact ⟨Iff.rfl, rfl⟩

theorem eq_space_of_mem_collapseFrom (hmem : c ∈ Text.collapseFrom inBlank text)
    (hc : Text.isBlank c = true) : c = .char ' ' := by
  induction text generalizing inBlank with
  | nil => simp [Text.collapseFrom] at hmem
  | cons d ds ih =>
    rw [Text.collapseFrom] at hmem
    cases hd : Text.isBlank d with
    | true =>
      rw [hd, if_pos rfl] at hmem
      cases inBlank with
      | true => exact ih hmem
      | false =>
        rcases List.mem_cons.1 hmem with hspace | hmem
        · exact hspace
        · exact ih hmem
    | false =>
      rw [hd, if_neg Bool.false_ne_true] at hmem
      rcases List.mem_cons.1 hmem with rfl | hmem
      · rw [hc] at hd
        cases hd
      · exact ih hmem

/-- A text on one line holds no white space but single spaces. -/
theorem notMem_quotesEscaped {d : Char} (hblank : Letter.isBlank d = true) (hspace : d ≠ ' ')
    (text : Text) : Sign.char d ∉ quotesEscaped (Text.collapseBlanks text) := by
  intro hmem
  rw [quotesEscaped_eq, List.mem_flatMap] at hmem
  obtain ⟨c, hc, hmem⟩ := hmem
  split at hmem
  · simp only [List.mem_cons, List.not_mem_nil, or_false, Sign.char.injEq] at hmem
    rcases hmem with rfl | rfl
    · exact absurd hblank (by decide)
    · exact absurd hblank (by decide)
  · rw [← List.mem_singleton.1 hmem] at hc
    exact hspace (Sign.char.inj (eq_space_of_mem_collapseFrom hc hblank))

/-! White space at either end can be cut off first: what is escaped is none. -/

theorem isBlank_backslash : Text.isBlank (.char '\\') = false := by decide

theorem dropWhile_quotesEscaped (inBlank : Bool) (text : Text) :
    (quotesEscaped (Text.collapseFrom inBlank text)).dropWhile Text.isBlank =
      quotesEscaped (Text.collapseBlanks (text.dropWhile Text.isBlank)) := by
  induction text generalizing inBlank with
  | nil => rfl
  | cons c cs ih =>
    rw [Text.collapseFrom, List.dropWhile_cons]
    cases hc : Text.isBlank c with
    | true =>
      rw [if_pos rfl, if_pos rfl, ← ih true]
      cases inBlank <;> rfl
    | false =>
      rw [if_neg Bool.false_ne_true, if_neg Bool.false_ne_true, Text.collapseBlanks,
        Text.collapseFrom, hc, if_neg Bool.false_ne_true, quotesEscaped_cons]
      split
      · rw [List.cons_append, List.dropWhile_cons, isBlank_backslash, if_neg Bool.false_ne_true]
      · rw [List.singleton_append, List.dropWhile_cons, hc, if_neg Bool.false_ne_true]

theorem collapseFrom_concat (inBlank : Bool) (cs : Text) (hc : Text.isBlank c = false) :
    Text.collapseFrom inBlank (cs ++ [c]) = Text.collapseFrom inBlank cs ++ [c] := by
  induction cs generalizing inBlank with
  | nil => simp [Text.collapseFrom, hc]
  | cons d ds ih =>
    rw [List.cons_append, Text.collapseFrom, Text.collapseFrom]
    split
    · split
      · exact ih true
      · rw [ih true, List.cons_append]
    · rw [ih false, List.cons_append]

/-- White space at the end is one space at most. -/
theorem exists_collapseFrom_concat (inBlank : Bool) (cs : Text) (hc : Text.isBlank c = true) :
    ∃ rest : Text, (rest = [] ∨ rest = [.char ' ']) ∧
      Text.collapseFrom inBlank (cs ++ [c]) = Text.collapseFrom inBlank cs ++ rest := by
  induction cs generalizing inBlank with
  | nil =>
    cases inBlank with
    | true => exact ⟨[], Or.inl rfl, by simp [Text.collapseFrom, hc]⟩
    | false => exact ⟨[.char ' '], Or.inr rfl, by simp [Text.collapseFrom, hc]⟩
  | cons d ds ih =>
    rw [List.cons_append, Text.collapseFrom, Text.collapseFrom]
    split
    · obtain ⟨rest, hrest, heq⟩ := ih true
      refine ⟨rest, hrest, ?_⟩
      split
      · exact heq
      · rw [heq, List.cons_append]
    · obtain ⟨rest, hrest, heq⟩ := ih false
      exact ⟨rest, hrest, by rw [heq, List.cons_append]⟩

theorem trimEnd_quotesEscaped (inBlank : Bool) (text : Text) :
    Text.trimEnd (quotesEscaped (Text.collapseFrom inBlank text)) =
      quotesEscaped (Text.collapseFrom inBlank (Text.trimEnd text)) := by
  unfold Text.trimEnd
  induction text using List.reverseRecOn with
  | nil => rfl
  | append_singleton cs c ih =>
    rw [Rows.trimEndWhere_concat]
    cases hc : Text.isBlank c with
    | true =>
      obtain ⟨rest, hrest, heq⟩ := exists_collapseFrom_concat inBlank cs hc
      rw [if_pos rfl, ← ih, heq, quotesEscaped_append]
      rcases hrest with rfl | rfl
      · rw [quotesEscaped_nil, List.append_nil]
      · have hspace : quotesEscaped [.char ' '] = [.char ' '] := by decide
        rw [hspace, Rows.trimEndWhere_concat, if_pos (by decide)]
    | false =>
      rw [if_neg Bool.false_ne_true, collapseFrom_concat inBlank cs hc, quotesEscaped_append,
        quotesEscaped_cons, quotesEscaped_nil, List.append_nil]
      -- the last sign stays, with a backslash in front of it or without
      split
      · next hquote =>
        rw [← List.singleton_append, ← List.append_assoc, Rows.trimEndWhere_concat,
          if_neg (by decide)]
      · rw [Rows.trimEndWhere_concat, hc, if_neg Bool.false_ne_true]

theorem oneLine_eq (text : Text) :
    oneLine text = quotesEscaped (Text.collapseBlanks (Text.trim text)) := by
  have hends : oneLine text =
      Text.trimEnd ((quotesEscaped (Text.collapseFrom false text)).dropWhile Text.isBlank) := rfl
  rw [hends, dropWhile_quotesEscaped, Text.collapseBlanks, trimEnd_quotesEscaped]
  rfl

/-- **Text on one line.** It can stand between single quotes exactly if, apart from white space at
either end, none of its quotes was escaped before and no backslash is left over at its end. -/
theorem isLiteral_oneLine_iff (text : Text) :
    isLiteral (singleQuoted (oneLine text)) = true ↔ IsUnescaped (Text.trim text) := by
  obtain ⟨hfit, hleaves⟩ := @quotesFit_collapseFrom false false false (Text.trim text) fun _ => rfl
  have hreturn := notMem_quotesEscaped (d := '\r') (by decide) (by decide) (Text.trim text)
  have hfeed := notMem_quotesEscaped (d := '\n') (by decide) (by decide) (Text.trim text)
  rw [isLiteral_singleQuoted_iff, isQuotable_iff, oneLine_eq, quotesFit_quotesEscaped,
    leavesEscaped_quotesEscaped, isUnescaped_iff, Text.collapseBlanks, hfit, hleaves]
  exact and_congr_right fun _ => and_iff_left ⟨hreturn, hfeed⟩

end OneLine

/-! ### Text for templates -/

section Templates

variable {escaped : Bool} {c : Sign} {text : Text}

/-- A text with curved quotes, whether they were escaped or not. -/
def curved : Text → Text
  | .char '\\' :: .char '\'' :: cs => .char '’' :: curved cs
  | .char '\'' :: cs => .char '’' :: curved cs
  | c :: cs => c :: curved cs
  | [] => []

theorem replace_quote_cons (new : Text) (c : Sign) (cs : Text) :
    Text.replace "'" new (c :: cs) =
      (if c = .char '\'' then new else [c]) ++ Text.replace "'" new cs := by
  have hreplace (row : Text) : Rows.replace [Sign.char '\''] new row = _ :=
    Rows.replace_singleton row
  simp only [beq_iff_eq] at hreplace
  show Rows.replace [Sign.char '\''] new (c :: cs) = _ ++ Rows.replace [Sign.char '\''] new cs
  rw [hreplace, hreplace, List.flatMap_cons]

theorem curved_eq (text : Text) :
    Text.replace "'" "’" (Text.replace "\\'" "'" text) = curved text := by
  induction text using curved.induct with
  | case1 cs ih =>
    have hreplace : Text.replace "\\'" "'" (.char '\\' :: .char '\'' :: cs) =
        .char '\'' :: Text.replace "\\'" "'" cs :=
      @Rows.replaceFrom_pattern _ _ (Sign.char '\\') [Sign.char '\''] _ _ cs
    rw [hreplace, replace_quote_cons, ih, curved]
    rfl
  | case2 cs ih =>
    have hreplace : Text.replace "\\'" "'" (.char '\'' :: cs) =
        .char '\'' :: Text.replace "\\'" "'" cs := rfl
    rw [hreplace, replace_quote_cons, ih, curved]
    rfl
  | case3 c cs hescaped hquote ih =>
    have hno : (Text.ofString "\\'").isPrefixOf (c :: cs) = false := by
      rw [← Bool.not_eq_true, List.isPrefixOf_iff_prefix]
      rintro ⟨rest, hrest⟩
      have hcons : Sign.char '\\' :: .char '\'' :: rest = c :: cs := hrest
      rw [List.cons.injEq] at hcons
      exact hescaped rest hcons.1.symm hcons.2.symm
    have hreplace : Text.replace "\\'" "'" (c :: cs) = c :: Text.replace "\\'" "'" cs := by
      show Rows.replaceFrom (Text.ofString "\\'") "'" 0 (c :: cs) = _
      rw [Rows.replaceFrom, hno, if_neg Bool.false_ne_true]
      rfl
    rw [hreplace, replace_quote_cons, ih, curved, if_neg hquote]
    · rfl
    · exact hescaped
    · exact hquote
  | case4 => rfl

/-- Curved quotes and line breaks escape nothing, as straight quotes and line ends do not. -/
theorem leavesEscaped_curved (escaped : Bool) (text : Text) :
    leavesEscaped escaped (curved text) = leavesEscaped escaped text := by
  have hcurved (escaped : Bool) : escapes escaped (.char '’') = false := escapes_of_ne (by decide)
  induction text using curved.induct generalizing escaped with
  | case1 cs ih => simp [curved, hcurved, ih]
  | case2 cs ih => simp [curved, hcurved, ih]
  | case3 c cs hescaped hquote ih =>
    rw [curved, leavesEscaped_cons, leavesEscaped_cons, ih]
    · exact hescaped
    · exact hquote
  | case4 => rfl

theorem leavesEscaped_breakLines (escaped : Bool) (text : Text) :
    leavesEscaped escaped (breakLines text) = leavesEscaped escaped text := by
  have hbreak (escaped : Bool) (rest : Text) :
      leavesEscaped escaped (lineBreak ++ rest) = leavesEscaped false rest := by
    cases escaped <;> rfl
  have hreturn (escaped : Bool) : escapes escaped (.char '\r') = false := escapes_of_ne (by decide)
  have hfeed (escaped : Bool) : escapes escaped (.char '\n') = false := escapes_of_ne (by decide)
  induction text using breakLines.induct generalizing escaped with
  | case1 cs ih => simp [breakLines, hbreak, hreturn, hfeed, ih]
  | case2 cs ih => simp [breakLines, hbreak, hfeed, ih]
  | case3 c cs hreturn hfeed ih =>
    rw [breakLines, leavesEscaped_cons, leavesEscaped_cons, ih]
    · exact hreturn
    · exact hfeed
  | case4 => rfl

theorem mem_curved_iff {d : Char} (hslash : d ≠ '\\') (hquote : d ≠ '\'') (hcurved : d ≠ '’')
    (text : Text) : Sign.char d ∈ curved text ↔ Sign.char d ∈ text := by
  induction text using curved.induct with
  | case1 cs ih => simp [curved, hslash, hquote, hcurved, ih]
  | case2 cs ih => simp [curved, hquote, hcurved, ih]
  | case3 c cs hescaped hstraight ih =>
    rw [curved, List.mem_cons, List.mem_cons, ih]
    · exact hescaped
    · exact hstraight
  | case4 => simp [curved]

theorem quote_notMem_curved (text : Text) : Sign.char '\'' ∉ curved text := by
  induction text using curved.induct with
  | case1 cs ih => simp [curved, ih]
  | case2 cs ih => simp [curved, ih]
  | case3 c cs hescaped hquote ih =>
    rw [curved, List.mem_cons, not_or]
    · exact ⟨Ne.symm hquote, ih⟩
    · exact hescaped
    · exact hquote
  | case4 => simp [curved]

theorem feed_notMem_breakLines (text : Text) : Sign.char '\n' ∉ breakLines text := by
  have hbreak : Sign.char '\n' ∉ lineBreak := by decide
  induction text using breakLines.induct with
  | case1 cs ih => simp [breakLines, hbreak, ih]
  | case2 cs ih => simp [breakLines, hbreak, ih]
  | case3 c cs hreturn hfeed ih =>
    rw [breakLines, List.mem_cons, not_or]
    · exact ⟨Ne.symm hfeed, ih⟩
    · exact hreturn
    · exact hfeed
  | case4 => simp [breakLines]

/-- Whether every carriage return of a text belongs to a line end. -/
def EndsLines (text : Text) : Prop :=
  ∀ before behind, text = before ++ .char '\r' :: behind → behind.head? = some (.char '\n')

theorem endsLines_cons {c : Sign} {cs : Text} : EndsLines (c :: cs) ↔
    (c = .char '\r' → cs.head? = some (.char '\n')) ∧ EndsLines cs := by
  constructor
  · intro h
    refine ⟨fun hc => h [] cs (by rw [hc]; rfl), fun before behind hcs => ?_⟩
    exact h (c :: before) behind (by rw [hcs]; rfl)
  · rintro ⟨hc, hcs⟩ before behind h
    cases before with
    | nil =>
      rw [List.nil_append, List.cons.injEq] at h
      rw [← h.2]
      exact hc h.1
    | cons d before =>
      rw [List.cons_append, List.cons.injEq] at h
      exact hcs before behind h.2

theorem return_notMem_breakLines_iff (text : Text) :
    Sign.char '\r' ∉ breakLines text ↔ EndsLines text := by
  have hbreak : Sign.char '\r' ∉ lineBreak := by decide
  induction text using breakLines.induct with
  | case1 cs ih => simp [breakLines, hbreak, ih, endsLines_cons]
  | case2 cs ih => simp [breakLines, hbreak, ih, endsLines_cons]
  | case3 c cs hreturn hfeed ih =>
    rw [breakLines, List.mem_cons, not_or, endsLines_cons]
    · refine and_congr ?_ ih
      constructor
      · exact fun hc heq => absurd heq.symm hc
      · -- a carriage return that a line feed follows is no single sign here
        intro hc heq
        obtain ⟨rest, hrest⟩ := List.head?_eq_some_iff.1 (hc heq.symm)
        exact hreturn rest heq.symm hrest
    · exact hreturn
    · exact hfeed
  | case4 => simp [breakLines, EndsLines]

/-- **Text for templates.** It can stand between single quotes exactly if no backslash is left over
at its end and each of its carriage returns belongs to a line end. -/
theorem isLiteral_forTemplate_iff (text : Text) :
    isLiteral (singleQuoted (forTemplate text)) = true ↔
      backslashesAtEnd text % 2 = 0 ∧ EndsLines text := by
  have hcurved : forTemplate text = curved (breakLines text) := curved_eq (breakLines text)
  have hquotes : QuotesFit true false (curved (breakLines text)) := by
    intro before behind heq
    have hmem : Sign.char '\'' ∈ curved (breakLines text) := by
      rw [heq]
      simp
    exact absurd hmem (quote_notMem_curved _)
  have hfeed : Sign.char '\n' ∉ curved (breakLines text) := by
    rw [mem_curved_iff (by decide) (by decide) (by decide)]
    exact feed_notMem_breakLines text
  have hparity : leavesEscaped false text = false ↔ backslashesAtEnd text % 2 = 0 := by
    rw [leavesEscaped_eq, decide_eq_false_iff_not]
    omega
  rw [isLiteral_singleQuoted_iff, isQuotable_iff, hcurved, leavesEscaped_curved,
    leavesEscaped_breakLines, hparity, mem_curved_iff (by decide) (by decide) (by decide),
    return_notMem_breakLines_iff]
  tauto

end Templates

/-! ### Where free text stands -/

section Places

open FieldBlock

variable {key : Scalar} {required : Bool} {shown : Lines} {schema : Fields} {b : FieldBlock}
  {text line : Text}

/-- The line of an optional text of an operation is there if the text is not empty. -/
theorem mem_textLine (key : Text) (hne : line ≠ []) :
    "\t" ++ quotedLine key line ∈ (match some line with
      | some t => if t.isEmpty then [] else [("\t" : Text) ++ quotedLine key t]
      | none => ([] : Lines)) := by
  have hempty : line.isEmpty = false := List.isEmpty_eq_false_iff.2 hne
  simp [hempty]

theorem description_mem_optionLines {o : Operation} (h : o.description = some line)
    (hne : line ≠ []) : "\tdescription: " ++ singleQuoted line ++ "," ∈ optionLines o := by
  have hline := mem_textLine "description" hne
  have hwritten : ("\tdescription: " ++ singleQuoted line ++ "," : Text) =
      "\t" ++ quotedLine "description" line := by
    simp [singleQuoted, quotedLine, Text.ofString]
  rw [hwritten, optionLines, h]
  simp only [code, List.flatten_cons, List.mem_append]
  exact Or.inr (Or.inl hline)

theorem action_mem_optionLines {o : Operation} (h : o.summary = some line) (hne : line ≠ []) :
    "\taction: " ++ singleQuoted line ++ "," ∈ optionLines o := by
  have hline := mem_textLine "action" hne
  have hwritten : ("\taction: " ++ singleQuoted line ++ "," : Text) =
      "\t" ++ quotedLine "action" line := by
    simp [singleQuoted, quotedLine, Text.ofString]
  rw [hwritten, optionLines, h]
  simp only [code, List.flatten_cons, List.mem_append]
  exact Or.inr (Or.inr (Or.inl hline))

theorem descriptionIn_eq (h : Fields.get "description" schema = .str text) (hne : text ≠ []) :
    descriptionIn schema = .ok (some (forTemplate text)) := by
  have htruthy : (Value.str text).truthy = true := by
    simpa [Value.truthy, Scalar.truthy] using hne
  rw [descriptionIn, h]
  simp only [htruthy, if_true]
  rfl

/-- Every block of a schema has the description of the schema in a line of its own. -/
theorem description_mem_lines (hblock : ofSchema key required shown (.map schema) = .ok b)
    (h : Fields.get "description" schema = .str text) (hne : text ≠ []) :
    "description: " ++ singleQuoted (forTemplate text) ++ "," ∈ b.lines := by
  have hin := descriptionIn_eq h hne
  have hwritten : ("description: " ++ singleQuoted (forTemplate text) ++ "," : Text) ∈
      descriptionLines (some (forTemplate text)) := by
    simp [descriptionLines, singleQuoted, quotedLine, Text.ofString]
  rw [ofSchema, ofFields] at hblock
  split at hblock
  · obtain ⟨description, hdescription, hblock⟩ := Outcome.bind_eq_ok.1 hblock
    obtain ⟨nestedKey, -, hblock⟩ := Outcome.bind_eq_ok.1 hblock
    obtain ⟨values, -, hblock⟩ := Outcome.bind_eq_ok.1 hblock
    rw [Outcome.pure_eq_ok] at hblock
    rw [hin, Except.ok.injEq] at hdescription
    rw [← hblock, FieldBlock.lines, ← hdescription]
    simp only [code, List.flatten_cons, List.mem_append]
    exact Or.inr (Or.inl hwritten)
  · obtain ⟨field, hfield, hblock⟩ := Outcome.bind_eq_ok.1 hblock
    obtain ⟨control, -, hfield⟩ := Outcome.bind_eq_ok.1 hfield
    obtain ⟨choices, -, hfield⟩ := Outcome.bind_eq_ok.1 hfield
    obtain ⟨default, -, hfield⟩ := Outcome.bind_eq_ok.1 hfield
    obtain ⟨description, hdescription, hfield⟩ := Outcome.bind_eq_ok.1 hfield
    rw [Outcome.pure_eq_ok] at hblock hfield
    rw [hin, Except.ok.injEq] at hdescription
    rw [← hblock, FieldBlock.lines, ← hfield, ← hdescription, singleLines]
    simp only [code, List.flatten_cons, List.mem_append]
    exact Or.inr (Or.inr (Or.inr (Or.inr (Or.inl hwritten))))

theorem oneLine?_eq_some (h : oneLine? text = some line) : line = oneLine text ∧ line ≠ [] := by
  unfold oneLine? at h
  dsimp only at h
  split at h
  · cases h
  · next hempty =>
    rw [Option.some.injEq] at h
    refine ⟨h.symm, ?_⟩
    rw [← h]
    simpa using hempty

/-- What becomes of a free text between single quotes. -/
structure IsQuoted (text : Text) : Prop where
  /-- As the description or the action of an operation, on one line. -/
  ofOperation : ∀ line, oneLine? text = some line →
    (∀ o : Operation, o.description = some line →
      "\tdescription: " ++ singleQuoted line ++ "," ∈ optionLines o) ∧
    (∀ o : Operation, o.summary = some line →
      "\taction: " ++ singleQuoted line ++ "," ∈ optionLines o) ∧
    (isLiteral (singleQuoted line) = true ↔ IsQuotable line) ∧
    (isLiteral (singleQuoted line) = true ↔ IsUnescaped (Text.trim text))
  /-- As the description of a field. -/
  ofField :
    (∀ key required shown schema b, ofSchema key required shown (.map schema) = .ok b →
      Fields.get "description" schema = .str text → text ≠ [] →
      "description: " ++ singleQuoted (forTemplate text) ++ "," ∈ b.lines) ∧
    (isLiteral (singleQuoted (forTemplate text)) = true ↔ IsQuotable (forTemplate text)) ∧
    (isLiteral (singleQuoted (forTemplate text)) = true ↔
      backslashesAtEnd text % 2 = 0 ∧ EndsLines text)

/-- **Free text in quotes.** Between the single quotes where it stands a free text is one literal
exactly if each of its quotes is escaped, nothing is escaped behind it, and it holds no line end.
For text on one line this is the case exactly if neither a quote nor the end of the given text was
escaped, and for text in templates exactly if its end was not and no carriage return stands
alone. -/
theorem isQuoted_of_freeText (text : Text) : IsQuoted text where
  ofOperation line h := by
    obtain ⟨rfl, hne⟩ := oneLine?_eq_some h
    exact ⟨fun o ho => description_mem_optionLines ho hne,
      fun o ho => action_mem_optionLines ho hne, isLiteral_singleQuoted_iff,
      isLiteral_oneLine_iff text⟩
  ofField :=
    ⟨fun _ _ _ _ _ hblock h hne => description_mem_lines hblock h hne, isLiteral_singleQuoted_iff,
      isLiteral_forTemplate_iff text⟩

/-- A remark with a quote that is escaped already and a backslash at its end. -/
def escapedRemark : Text := "it\\'s on C:\\"

theorem not_isLiteral_escapedRemark : ∃ line, oneLine? escapedRemark = some line ∧
    isLiteral (singleQuoted line) = false ∧
    isLiteral (singleQuoted (forTemplate escapedRemark)) = false :=
  ⟨oneLine escapedRemark, by decide, by decide, by decide⟩

end Places

end NodeForge.Source
