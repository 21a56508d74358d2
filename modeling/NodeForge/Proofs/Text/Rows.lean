import Mathlib.Data.List.Basic
import Mathlib.Data.List.Induction
import NodeForge.Text.Rows

/-!
# Cutting and replacing in rows

What a replacement does to a row is said piece by piece: a piece without the sign that the pattern
begins with stays as it is (`replaceFrom_of_notMem`), and the pattern itself is replaced
(`replaceFrom_pattern`).

Cutting gives back pieces that were joined (`splitAt_intercalate`). Marks at either end of a row
make no difference to the pieces that are not empty (`filter_splitAt_trimWhere`).
-/

namespace NodeForge.Rows

variable {α : Type} [BEq α] {mark : α} {pattern new : List α}

theorem replaceFrom_length (passed rest : List α) :
    replaceFrom pattern new passed.length (passed ++ rest) = replaceFrom pattern new 0 rest := by
  induction passed with
  | nil => rfl
  | cons c cs ih => exact ih

variable [LawfulBEq α]

/-- The first mark ends what stands before it. -/
theorem takeWhile_append_mark {row : List α} (h : mark ∉ row) (rest : List α) :
    (row ++ mark :: rest).takeWhile (· != mark) = row := by
  have hall : ∀ s ∈ row, (s != mark) = true := fun s hs => bne_iff_ne.2 fun heq => h (heq ▸ hs)
  rw [List.takeWhile_append_of_pos hall]
  simp

theorem append_mark_inj {x y a b : List α} (hx : mark ∉ x) (hy : mark ∉ y) :
    x ++ mark :: a = y ++ mark :: b ↔ x = y ∧ a = b := by
  constructor
  · intro h
    obtain rfl : x = y := by rw [← takeWhile_append_mark hx a, h, takeWhile_append_mark hy]
    rw [List.append_cancel_left_eq, List.cons.injEq] at h
    exact ⟨rfl, h.2⟩
  · rintro ⟨rfl, rfl⟩
    rfl

theorem contains_singleton {row : List α} : contains [mark] row = true ↔ mark ∈ row := by
  induction row with
  | nil => simp [contains]
  | cons c cs ih => simp [contains, ih]

/-- What holds no sign that a pattern begins with stays as it is. -/
theorem replaceFrom_of_notMem {row : List α} (h : mark ∉ row) (rest : List α) :
    replaceFrom (mark :: pattern) new 0 (row ++ rest) =
      row ++ replaceFrom (mark :: pattern) new 0 rest := by
  induction row with
  | nil => rfl
  | cons c cs ih =>
    rw [List.mem_cons, not_or] at h
    have hno : (mark :: pattern).isPrefixOf (c :: (cs ++ rest)) = false := by
      rw [List.isPrefixOf, beq_eq_false_iff_ne.2 h.1, Bool.false_and]
    rw [List.cons_append, replaceFrom, hno, if_neg Bool.false_ne_true, ih h.2]
    rfl

/-- A row that begins with a pattern is replaced. -/
theorem replaceFrom_pattern (rest : List α) :
    replaceFrom (mark :: pattern) new 0 (mark :: pattern ++ rest) =
      new ++ replaceFrom (mark :: pattern) new 0 rest := by
  have hyes : (mark :: pattern).isPrefixOf (mark :: pattern ++ rest) = true :=
    List.isPrefixOf_iff_prefix.2 (List.prefix_append _ _)
  rw [List.cons_append] at hyes ⊢
  rw [replaceFrom, if_pos hyes]
  exact congrArg _ (replaceFrom_length pattern rest)

/-- Replacing a single sign looks at one sign at a time. -/
theorem replace_singleton (row : List α) :
    replace [mark] new row = row.flatMap fun c => if c == mark then new else [c] := by
  unfold replace
  induction row with
  | nil => rfl
  | cons c cs ih =>
    rw [List.flatMap_cons, ← ih]
    by_cases hc : (c == mark) = true
    · rw [if_pos hc, beq_iff_eq.1 hc]
      exact replaceFrom_pattern cs
    · rw [if_neg hc]
      have hother : mark ∉ [c] := fun hmem => hc (beq_iff_eq.2 (List.mem_singleton.1 hmem).symm)
      exact replaceFrom_of_notMem hother cs

/-! ### Cutting -/

section

variable {β : Type} [DecidableEq β] {cut : β}

theorem splitAt_of_notMem {row : List β} (h : cut ∉ row) : splitAt cut row = [row] := by
  induction row with
  | nil => rfl
  | cons c cs ih =>
    rw [List.mem_cons, not_or] at h
    rw [splitAt, if_neg (Ne.symm h.1), ih h.2]

/-- Where there is no mark, all of a row stands behind the last one. -/
theorem cutAtLast_of_notMem {row : List β} (h : cut ∉ row) : cutAtLast cut row = ([], row) := by
  induction row with
  | nil => rfl
  | cons c cs ih =>
    rw [List.mem_cons, not_or] at h
    rw [cutAtLast, ih h.2]
    simp [Ne.symm h.1]

/-- A mark parts the pieces before it from those behind it. -/
theorem splitAt_append (row rest : List β) :
    splitAt cut (row ++ cut :: rest) = splitAt cut row ++ splitAt cut rest := by
  induction row with
  | nil => simp [splitAt]
  | cons c cs ih =>
    rw [List.cons_append, splitAt, splitAt, ih]
    by_cases hc : c = cut
    · rw [if_pos hc, if_pos hc, List.cons_append]
    · rw [if_neg hc, if_neg hc]
      -- cutting makes one piece at least, which `c` is put in front of
      cases hpieces : splitAt cut cs with
      | nil => exact absurd hpieces (splitAt_ne_nil cut cs)
      | cons piece pieces => rfl

theorem splitAt_append_mark {row : List β} (h : cut ∉ row) (rest : List β) :
    splitAt cut (row ++ cut :: rest) = row :: splitAt cut rest := by
  rw [splitAt_append, splitAt_of_notMem h, List.singleton_append]

/-- The first piece goes up to the first mark. -/
theorem splitAt_eq_cons (row : List β) :
    splitAt cut row = row.takeWhile (· != cut) :: (splitAt cut row).tail := by
  induction row with
  | nil => rfl
  | cons c cs ih =>
    rw [splitAt]
    by_cases hc : c = cut
    · simp [hc]
    · have hkeep : (c :: cs).takeWhile (· != cut) = c :: cs.takeWhile (· != cut) :=
        List.takeWhile_cons_of_pos (bne_iff_ne.2 hc)
      rw [if_neg hc, ih, hkeep, List.tail_cons]

/-- A piece holds no mark. -/
theorem notMem_of_mem_splitAt {row piece : List β} (h : piece ∈ splitAt cut row) : cut ∉ piece := by
  induction row generalizing piece with
  | nil =>
    rw [List.mem_singleton.1 h]
    exact List.not_mem_nil
  | cons c cs ih =>
    rw [splitAt] at h
    by_cases hc : c = cut
    · rw [if_pos hc, List.mem_cons] at h
      rcases h with rfl | h
      · exact List.not_mem_nil
      · exact ih h
    · rw [if_neg hc, splitAt_eq_cons cs, List.mem_cons] at h
      rcases h with rfl | h
      · have hfirst := ih (by rw [splitAt_eq_cons cs]; exact List.mem_cons_self)
        rw [List.mem_cons, not_or]
        exact ⟨Ne.symm hc, hfirst⟩
      · exact ih (List.mem_of_mem_tail h)

/-- Cutting gives back what was joined. -/
theorem splitAt_intercalate {pieces : List (List β)} (hne : pieces ≠ [])
    (h : ∀ piece ∈ pieces, cut ∉ piece) :
    splitAt cut (List.intercalate [cut] pieces) = pieces := by
  induction pieces with
  | nil => exact absurd rfl hne
  | cons piece rest ih =>
    have hpiece := h piece List.mem_cons_self
    cases rest with
    | nil =>
      rw [List.intercalate_singleton]
      exact splitAt_of_notMem hpiece
    | cons next rest =>
      have hrest := ih (List.cons_ne_nil _ _) fun p hp => h p (List.mem_cons_of_mem _ hp)
      rw [List.intercalate_cons_cons, List.append_assoc, List.singleton_append,
        splitAt_append_mark hpiece, hrest]

theorem splitAt_concat_mark (row : List β) :
    splitAt cut (row ++ [cut]) = splitAt cut row ++ [[]] := splitAt_append row []

/-- The marks at the beginning of a row only cut off empty pieces. -/
theorem filter_splitAt_dropWhile (row : List β) :
    (splitAt cut (row.dropWhile (· == cut))).filter (!·.isEmpty) =
      (splitAt cut row).filter (!·.isEmpty) := by
  induction row with
  | nil => rfl
  | cons c cs ih =>
    by_cases hc : c = cut
    · rw [List.dropWhile_cons, if_pos (beq_iff_eq.2 hc), ih, splitAt, if_pos hc]
      rfl
    · rw [List.dropWhile_cons, if_neg (mt beq_iff_eq.1 hc)]

theorem trimEndWhere_concat {γ : Type} (p : γ → Bool) (row : List γ) (c : γ) :
    trimEndWhere p (row ++ [c]) = if p c then trimEndWhere p row else row ++ [c] := by
  rw [trimEndWhere, List.reverse_append, List.reverse_singleton, List.singleton_append,
    List.dropWhile_cons]
  cases p c with
  | true => rfl
  | false =>
    rw [if_neg Bool.false_ne_true, List.reverse_cons, List.reverse_reverse]
    rfl

/-- So do the marks at its end. -/
theorem filter_splitAt_trimEndWhere (row : List β) :
    (splitAt cut (trimEndWhere (· == cut) row)).filter (!·.isEmpty) =
      (splitAt cut row).filter (!·.isEmpty) := by
  induction row using List.reverseRecOn with
  | nil => rfl
  | append_singleton cs c ih =>
    rw [trimEndWhere_concat]
    by_cases hc : c = cut
    · rw [if_pos (beq_iff_eq.2 hc), ih, hc, splitAt_concat_mark, List.filter_append]
      simp
    · rw [if_neg (mt beq_iff_eq.1 hc)]

theorem filter_splitAt_trimWhere (row : List β) :
    (splitAt cut (trimWhere (· == cut) row)).filter (!·.isEmpty) =
      (splitAt cut row).filter (!·.isEmpty) := by
  rw [trimWhere, filter_splitAt_trimEndWhere, filter_splitAt_dropWhile]

end

/-! ### Parts -/

theorem trimEndWhere_prefix {γ : Type} (p : γ → Bool) (row : List γ) :
    trimEndWhere p row <+: row := by
  rw [trimEndWhere, ← List.reverse_suffix, List.reverse_reverse]
  exact List.dropWhile_suffix _

/-- A row without a mark is a part of two rows with the mark between them exactly if it is a part of
one of them. -/
theorem isInfix_append_cons_iff {γ : Type} {part before behind : List γ} {mark : γ}
    (h : mark ∉ part) :
    part <:+: before ++ mark :: behind ↔ part <:+: before ∨ part <:+: behind := by
  constructor
  · rintro ⟨front, rest, heq⟩
    rcases List.append_eq_append_iff.1 heq with ⟨own, rfl, -⟩ | ⟨own, hfront, hrest⟩
    · exact Or.inl ⟨front, own, rfl⟩
    · cases own with
      | nil =>
        rw [List.append_nil] at hfront
        exact Or.inl ⟨front, [], by rw [hfront, List.append_nil]⟩
      | cons c own =>
        rw [List.cons_append, List.cons.injEq] at hrest
        obtain ⟨rfl, hbehind⟩ := hrest
        -- the mark stands in front of the part or in it
        rcases List.append_eq_append_iff.1 hfront with ⟨between, -, hpart⟩ | ⟨between, -, hpart⟩
        · exact absurd (hpart ▸ by simp) h
        · cases between with
          | nil =>
            rw [List.nil_append] at hpart
            exact absurd (hpart ▸ List.mem_cons_self) h
          | cons d between =>
            rw [List.cons_append, List.cons.injEq] at hpart
            exact Or.inr ⟨between, rest, by rw [hbehind, hpart.2]⟩
  · rintro (hpart | hpart)
    · exact hpart.trans (List.prefix_append _ _).isInfix
    · exact hpart.trans ((List.suffix_cons _ _).trans (List.suffix_append _ _)).isInfix

end NodeForge.Rows
