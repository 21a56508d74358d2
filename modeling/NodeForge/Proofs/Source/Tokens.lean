import NodeForge.Proofs.Source.Exports
import NodeForge.Proofs.Source.Literals

/-!
# Code as tokens

What code says does not depend on what its lines were made for: whoever reads it takes a literal
from a quote to the next one that is not escaped, and all else as words and marks. So a text that is
written between quotes is read as one literal if it can stand there (`tokens_quotedLine`), and if it
cannot, a part of it is read as code. A literal ends with its line at the latest, so the tokens of a
file are those of its lines, one after the other (`tokens_unlines`).
-/

namespace NodeForge.Source

/-- A token of code: a word, a literal in single quotes, or another sign by itself. -/
inductive Token where
  | word (text : Text)
  | literal (text : Text)
  | mark (s : Sign)
deriving DecidableEq

/-- Where a reader of code stands: outside literals or in one. `held` are the signs of the word or
the literal up to here, the last one first. -/
inductive Reader where
  | code (held : Text)
  | literal (escaped : Bool) (held : Text)

/-- Whether words have a sign in them. Beside letters and digits these are the two marks that may
stand in names, and whatever is not ASCII. -/
def isNameSign (s : Sign) : Bool :=
  Naming.isWordSign s || s == .char '_' || s == .char '$' || (127 < s.code && !Text.isBlank s)

/-- The word that ends where a reader stands. -/
def wordOf (held : Text) : List Token := if held.isEmpty then [] else [.word held.reverse]

/-- The tokens of code from where a reader stands. A literal without an end on its line is none. -/
def tokensFrom : Reader → Text → List Token
  | .code held, [] => wordOf held
  | .literal _ _, [] => []
  | .code held, c :: cs =>
    if isNameSign c then tokensFrom (.code (c :: held)) cs
    else wordOf held ++
      if c = .char '\'' then tokensFrom (.literal false []) cs
      else if Text.isBlank c then tokensFrom (.code []) cs
      else .mark c :: tokensFrom (.code []) cs
  | .literal escaped held, c :: cs =>
    if c = .char '\r' ∨ c = .char '\n' then tokensFrom (.code []) cs
    else if c = .char '\'' ∧ escaped = false then .literal held.reverse :: tokensFrom (.code []) cs
    else tokensFrom (.literal (escapes escaped c) (c :: held)) cs

/-- The tokens of code. -/
def tokens (code : Text) : List Token := tokensFrom (.code []) code

section Reading

variable {c : Sign} {text cs rest key body : Text} {held : Text}

theorem tokensFrom_code (h : isNameSign c = false) (hquote : c ≠ .char '\'')
    (hblank : Text.isBlank c = false) :
    tokensFrom (.code held) (c :: cs) = wordOf held ++ .mark c :: tokens cs := by
  simp [tokensFrom, tokens, h, hquote, hblank]

theorem tokensFrom_blank (h : Text.isBlank c = true) (hname : isNameSign c = false)
    (hquote : c ≠ .char '\'') :
    tokensFrom (.code held) (c :: cs) = wordOf held ++ tokens cs := by
  simp [tokensFrom, tokens, h, hname, hquote]

/-- What stands behind a line end is read by itself. -/
theorem tokensFrom_append_feed (reader : Reader) (a b : Text) :
    tokensFrom reader (a ++ Text.feed :: b) = tokensFrom reader a ++ tokens b := by
  induction a generalizing reader with
  | nil =>
    cases reader with
    | code held => exact tokensFrom_blank (by decide) (by decide) (by decide)
    | literal escaped held =>
      have hend : Text.feed = .char '\r' ∨ Text.feed = .char '\n' := Or.inr rfl
      rw [List.nil_append, tokensFrom, tokensFrom, if_pos hend]
      rfl
  | cons c cs ih =>
    cases reader with
    | code held =>
      rw [List.cons_append, tokensFrom, tokensFrom]
      split
      · exact ih _
      · rw [List.append_assoc]
        congr 1
        split
        · exact ih _
        · split
          · exact ih _
          · rw [ih, List.cons_append]
    | literal escaped held =>
      rw [List.cons_append, tokensFrom, tokensFrom]
      split
      · exact ih _
      · split
        · rw [ih, List.cons_append]
        · exact ih _

/-- The tokens of a file are those of what is written, line by line. -/
theorem tokens_unlines (lines : Lines) : tokens (Text.unlines lines) = lines.flatMap tokens := by
  induction lines with
  | nil => rfl
  | cons line rest ih =>
    cases rest with
    | nil => simp [Text.unlines, Text.joined]
    | cons next rest =>
      rw [Text.unlines_cons_cons, tokens, tokensFrom_append_feed, ih]
      exact List.flatMap_cons.symm

theorem IsWordText.tokensFrom_append {word : Text} (h : IsWordText word) :
    tokensFrom (.code held) (word ++ rest) = tokensFrom (.code (word.reverse ++ held)) rest := by
  induction word generalizing held with
  | nil => rfl
  | cons c cs ih =>
    have hc : isNameSign c = true := by simp [isNameSign, h c List.mem_cons_self]
    rw [List.cons_append, tokensFrom, if_pos hc, ih fun s hs => h s (List.mem_cons_of_mem _ hs),
      List.reverse_cons, List.append_assoc, List.singleton_append]

/-- A text that can stand between quotes is read up to the quote behind it. -/
theorem tokensFrom_literal {escaped : Bool} (hfit : QuotesFit true escaped body)
    (hends : leavesEscaped escaped body = false) (hreturn : Sign.char '\r' ∉ body)
    (hfeed : Sign.char '\n' ∉ body) :
    tokensFrom (.literal escaped held) (body ++ .char '\'' :: rest) =
      .literal (held.reverse ++ body) :: tokens rest := by
  induction body generalizing escaped held with
  | nil =>
    rw [leavesEscaped_nil] at hends
    rw [List.nil_append, tokensFrom, if_neg (by decide), if_pos ⟨rfl, hends⟩, List.append_nil]
    rfl
  | cons c cs ih =>
    rw [quotesFit_cons] at hfit
    rw [List.mem_cons, not_or] at hreturn hfeed
    have hline : ¬ (c = .char '\r' ∨ c = .char '\n') :=
      not_or.2 ⟨Ne.symm hreturn.1, Ne.symm hfeed.1⟩
    have hopen : ¬ (c = .char '\'' ∧ escaped = false) := by
      rintro ⟨hc, rfl⟩
      exact Bool.false_ne_true (hfit.1 hc)
    rw [List.cons_append, tokensFrom, if_neg hline, if_neg hopen,
      ih hfit.2 hends hreturn.2 hfeed.2, List.reverse_cons, List.append_assoc,
      List.singleton_append]

/-- The tokens of a key with a literal behind it. -/
def keyTokens (key body : Text) : List Token :=
  [.word key, .mark (.char ':'), .literal body]

@[simp] theorem keyTokens_ne_nil : keyTokens key body ≠ [] := List.cons_ne_nil _ _

/-- A text between quotes is read as one literal if it can stand there. -/
theorem tokens_quotedLine (hkey : IsWordText key) (hne : key ≠ []) (hbody : IsQuotable body) :
    tokens ("\t" ++ FieldBlock.quotedLine key body) =
      keyTokens key body ++ [.mark (.char ',')] := by
  obtain ⟨hfit, hends, hreturn, hfeed⟩ := isQuotable_iff.1 hbody
  have hword : wordOf key.reverse = [.word key] := by
    rw [wordOf, if_neg (by simpa using hne), List.reverse_reverse]
  have hline : ("\t" ++ FieldBlock.quotedLine key body : Text) =
      .char '\t' :: (key ++ .char ':' :: .char ' ' :: .char '\'' ::
        (body ++ .char '\'' :: [.char ','])) := by
    simp [FieldBlock.quotedLine, Text.ofString]
  have hquoted : tokensFrom (.literal false []) (body ++ .char '\'' :: [.char ',']) =
      [.literal body, .mark (.char ',')] :=
    tokensFrom_literal hfit hends hreturn hfeed
  have hbehind : tokens (.char ' ' :: .char '\'' :: (body ++ .char '\'' :: [.char ','])) =
      [.literal body, .mark (.char ',')] := hquoted
  rw [hline, tokens, tokensFrom_blank (by decide) (by decide) (by decide), tokens,
    hkey.tokensFrom_append, List.append_nil,
    tokensFrom_code (by decide) (by decide) (by decide), hbehind, hword]
  rfl

end Reading

/-! ### Values -/

section Values

variable {code value : Text}

/-- **Values of code.** Whether code gives a value under the key `value`. -/
def GivesValue (code value : Text) : Prop := keyTokens "value" value <:+: tokens code

instance (code value : Text) : Decidable (GivesValue code value) :=
  inferInstanceAs (Decidable (_ <:+: _))

/-- A quote that is not escaped ends the literal, and what stands behind it is code. -/
example : GivesValue "description: 'Add', value: '../../evil', action: 'go'," "../../evil" := by
  decide +kernel

/-- Marks other than the one behind a key part what gives a value. -/
theorem keyTokens_isInfix_append {key body : Text} {c : Char} (hc : c ≠ ':')
    (before behind : List Token) :
    keyTokens key body <:+: before ++ .mark (.char c) :: behind ↔
      keyTokens key body <:+: before ∨ keyTokens key body <:+: behind := by
  apply Rows.isInfix_append_cons_iff
  simpa [keyTokens] using hc

/-- A key with a literal behind it is there in another one only if they are the same. -/
theorem keyTokens_isInfix_iff {key key' body body' : Text} :
    keyTokens key body <:+: keyTokens key' body' ↔ key = key' ∧ body = body' := by
  constructor
  · intro h
    have heq := h.eq_of_length rfl
    simp only [keyTokens, List.cons.injEq, Token.word.injEq, Token.literal.injEq] at heq
    exact ⟨heq.1, heq.2.2.1⟩
  · rintro ⟨rfl, rfl⟩
    exact List.infix_refl _

end Values

end NodeForge.Source
