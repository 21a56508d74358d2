import NodeForge.Proofs.Text.Rows
import NodeForge.Text.Basic

/-!
# Lines of texts

A text that is written as one line of a file may hold line ends, and then it makes several lines of
the file: its first one, and the ones behind it (`lines_eq`). A file of lines has the lines of each
of them, one after the other (`lines_unlines`). So what a reader finds in the lines of a file is
what it finds in those that were written, as far as line ends do not hide it, and in the lines that
line ends in them begin (`mem_filterMap_lines`).
-/

namespace NodeForge.Text

/-- A line end. -/
def feed : Sign := .char '\n'

/-- The first line of a text. -/
def firstLine (text : Text) : Text := text.takeWhile (· != feed)

/-- The lines of a text behind its first one. -/
def restLines (text : Text) : List Text := (lines text).tail

/-- The lines that line ends in some texts begin. -/
def strayLines (texts : List Text) : List Text := texts.flatMap restLines

theorem firstLine_cons (c : Sign) (cs : Text) :
    firstLine (c :: cs) = if c = feed then [] else c :: firstLine cs := by
  rw [firstLine, List.takeWhile_cons]
  by_cases hc : c = feed <;> simp [hc, firstLine]

/-- What holds no line end belongs to the first line. -/
theorem firstLine_append {start : Text} (h : feed ∉ start) (rest : Text) :
    firstLine (start ++ rest) = start ++ firstLine rest := by
  induction start with
  | nil => rfl
  | cons c cs ih =>
    rw [List.mem_cons, not_or] at h
    rw [List.cons_append, firstLine_cons, if_neg (Ne.symm h.1), ih h.2, List.cons_append]

theorem lines_eq (text : Text) : lines text = firstLine text :: restLines text :=
  Rows.splitAt_eq_cons text

theorem lines_append (a b : Text) : lines (a ++ feed :: b) = lines a ++ lines b :=
  Rows.splitAt_append a b

/-- A text without line ends is one line. -/
theorem lines_of_notMem {text : Text} (h : feed ∉ text) : lines text = [text] :=
  Rows.splitAt_of_notMem h

theorem flatMap_lines_of_notMem {texts : List Text} (h : ∀ text ∈ texts, feed ∉ text) :
    texts.flatMap lines = texts := by
  rw [List.flatMap_congr fun text htext => lines_of_notMem (h text htext), List.flatMap_singleton']

theorem restLines_of_notMem {text : Text} (h : feed ∉ text) : restLines text = [] := by
  rw [restLines, lines_of_notMem h, List.tail_cons]

theorem strayLines_of_notMem {texts : List Text} (h : ∀ text ∈ texts, feed ∉ text) :
    strayLines texts = [] := by
  rw [strayLines, List.flatMap_eq_nil_iff]
  exact fun text htext => restLines_of_notMem (h text htext)

/-- A line holds no line end. -/
theorem feed_notMem_of_mem_lines {text line : Text} (h : line ∈ lines text) : feed ∉ line :=
  Rows.notMem_of_mem_splitAt h

theorem unlines_cons_cons (text next : Text) (rest : List Text) :
    unlines (text :: next :: rest) = text ++ feed :: unlines (next :: rest) := by
  show List.intercalate [feed] (text :: next :: rest) = _
  rw [List.intercalate_cons_cons, List.append_assoc]
  rfl

/-- A file of lines has the lines of each of them. -/
theorem lines_unlines {texts : List Text} (h : texts ≠ []) :
    lines (unlines texts) = texts.flatMap lines := by
  induction texts with
  | nil => exact absurd rfl h
  | cons text rest ih =>
    cases rest with
    | nil =>
      rw [unlines, joined, List.intercalate_singleton, List.flatMap_singleton]
    | cons next rest =>
      rw [unlines_cons_cons, lines_append, ih (List.cons_ne_nil _ _)]
      exact List.flatMap_cons.symm

/-! ### Readers of lines -/

section Readers

variable {β : Type} {read : Text → Option β} {texts : List Text} {b : β}

/-- What a reader finds in the lines of texts, it finds in one of the texts or in a line that a line
end in them begins, if it finds in each of them what it finds in its first line. -/
theorem mem_filterMap_lines (h : ∀ text ∈ texts, read (firstLine text) = read text) :
    b ∈ (texts.flatMap lines).filterMap read ↔
      b ∈ texts.filterMap read ∨ b ∈ (strayLines texts).filterMap read := by
  simp only [strayLines, List.mem_filterMap, List.mem_flatMap]
  constructor
  · rintro ⟨line, ⟨text, htext, hline⟩, hread⟩
    rw [lines_eq, List.mem_cons] at hline
    rcases hline with rfl | hline
    · exact Or.inl ⟨text, htext, (h text htext).symm.trans hread⟩
    · exact Or.inr ⟨line, ⟨text, htext, hline⟩, hread⟩
  · rintro (⟨text, htext, hread⟩ | ⟨line, ⟨text, htext, hline⟩, hread⟩)
    · exact ⟨firstLine text, ⟨text, htext, by rw [lines_eq]; exact List.mem_cons_self⟩,
        (h text htext).trans hread⟩
    · exact ⟨line, ⟨text, htext, by rw [lines_eq]; exact List.mem_cons_of_mem _ hline⟩, hread⟩

end Readers

end NodeForge.Text
