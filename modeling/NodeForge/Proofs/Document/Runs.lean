import Mathlib.Data.List.Perm.Basic
import NodeForge.Document.Runs

/-!
# Merging runs keeps the members of a row

Whatever members can be compared, and whatever the comparisons say, `Runs.sort` only moves the
members of a row to other places (`sort_perm`). Each step is followed on its own: a run that is
taken from the front of a row, a member that is put into a run, a piece that is cut off a run while
two runs are merged, and two waiting runs that become one. A step that merges is a permutation for
every bound on its steps, so the bounds do not matter here.
-/

namespace NodeForge.Runs

variable {α : Type}

/-! ### Runs as they stand -/

theorem stretch_append (goesOn : α → α → Bool) (last : α) (row : List α) :
    (stretch goesOn last row).1 ++ (stretch goesOn last row).2 = row := by
  induction row generalizing last with
  | nil => rfl
  | cons x xs ih =>
    rw [stretch]
    split
    · exact congrArg (List.cons x) (ih x)
    · rfl

/-- A run at the start of a row has a member, and with the rest it makes the row. -/
theorem leading_perm (less : α → α → Bool) {row : List α} (hne : row ≠ []) :
    (leading less row).1 ≠ [] ∧ ((leading less row).1 ++ (leading less row).2).Perm row := by
  match row with
  | [] => exact absurd rfl hne
  | [x] => exact ⟨List.cons_ne_nil x [], List.Perm.refl _⟩
  | x :: y :: ys =>
    rw [leading]
    split
    -- a falling run is turned round
    · have happend := stretch_append (fun a b => less b a) y ys
      have hrun := List.reverse_perm (x :: y :: (stretch (fun a b => less b a) y ys).1)
      refine ⟨by simp, (hrun.append_right _).trans ?_⟩
      rw [List.cons_append, List.cons_append, happend]
    · have happend := stretch_append (fun a b => !less b a) y ys
      refine ⟨by simp, ?_⟩
      dsimp only
      rw [List.cons_append, List.cons_append, happend]

/-! ### Filling a run up -/

theorem halve_le (after : α → Bool) (row : List α) (fuel : Nat) {low high : Nat}
    (h : low ≤ high) : halve after row fuel low high ≤ high := by
  induction fuel generalizing low high with
  | zero => exact h
  | succ fuel ih =>
    rw [halve]
    split
    · exact h
    · next hlt =>
      split
      · have hmiddle : (low + high) / 2 ≤ high := by omega
        exact Nat.le_trans (ih (by omega)) hmiddle
      · exact ih (by omega)

theorem insert_perm (less : α → α → Bool) (run : List α) (x : α) :
    (insert less run x).Perm (x :: run) :=
  List.perm_insertIdx x run (halve_le (less x) run run.length (Nat.zero_le _))

theorem foldl_insert_perm (less : α → α → Bool) (run row : List α) :
    (row.foldl (insert less) run).Perm (run ++ row) := by
  induction row generalizing run with
  | nil => rw [List.foldl_nil, List.append_nil]
  | cons x xs ih =>
    have hstep : (insert less run x ++ xs).Perm (x :: run ++ xs) :=
      (insert_perm less run x).append_right xs
    have hmove : (x :: run ++ xs).Perm (run ++ x :: xs) := List.perm_middle.symm
    exact (ih (insert less run x)).trans (hstep.trans hmove)

/-- The next run takes something of a row away, and with the rest it makes the row. -/
theorem nextRun_perm (less : α → α → Bool) (least : Nat) {row : List α} (hne : row ≠ []) :
    ((nextRun less least row).1 ++ (nextRun less least row).2).Perm row ∧
      (nextRun less least row).2.length < row.length := by
  obtain ⟨hrun, hleading⟩ := leading_perm less hne
  have hlength := hleading.length_eq
  have hpositive : 0 < (leading less row).1.length := List.length_pos_iff.2 hrun
  rw [List.length_append] at hlength
  have hfilled := foldl_insert_perm less (leading less row).1
    ((leading less row).2.take (least - (leading less row).1.length))
  constructor
  · have hall := hfilled.append_right
      ((leading less row).2.drop (least - (leading less row).1.length))
    rw [List.append_assoc, List.take_append_drop] at hall
    exact hall.trans hleading
  · show ((leading less row).2.drop (least - (leading less row).1.length)).length < row.length
    rw [List.length_drop]
    omega

/-! ### Merging two runs -/

/-- What is cut off a run and what is left of it make the run. -/
theorem Side.cut_perm (side : Side) (count : Nat) (row : List α) :
    ((side.cut count row).1 ++ (side.cut count row).2).Perm row := by
  cases side with
  | front =>
    show (row.take count ++ row.drop count).Perm row
    rw [List.take_append_drop]
  | back =>
    have hswap : (row.drop (row.length - count) ++ row.take (row.length - count)).Perm
        (row.take (row.length - count) ++ row.drop (row.length - count)) := List.perm_append_comm
    rwa [List.take_append_drop] at hswap

theorem Side.join_perm (side : Side) (piece rest : List α) :
    (side.join piece rest).Perm (piece ++ rest) := by
  cases side with
  | front => exact List.Perm.refl _
  | back => exact List.perm_append_comm

/-- **Two runs.** Merging two runs from one end keeps the members of both. -/
theorem merge_perm (less : α → α → Bool) (side : Side) (fuel : Nat) (pace : Pace) (lead : Nat)
    (first second : List α) :
    (merge less side fuel pace lead first second).1.Perm (first ++ second) := by
  induction fuel generalizing pace lead first second with
  | zero => exact List.perm_append_comm
  | succ fuel ih =>
    -- a piece is taken off one of the runs, and the others are merged
    have hfirst (count : Nat) (pace : Pace) (lead : Nat) :
        (side.join (side.cut count first).1
          (merge less side fuel pace lead (side.cut count first).2 second).1).Perm
          (first ++ second) := by
      have hmerged := (ih pace lead (side.cut count first).2 second).append_left
        (side.cut count first).1
      rw [← List.append_assoc] at hmerged
      exact (side.join_perm _ _).trans
        (hmerged.trans ((side.cut_perm count first).append_right second))
    have hsecond (count : Nat) (pace : Pace) (lead : Nat) :
        (side.join (side.cut count second).1
          (merge less side fuel pace lead first (side.cut count second).2).1).Perm
          (first ++ second) := by
      have hmerged := (ih pace lead first (side.cut count second).2).append_left
        (side.cut count second).1
      have hmove : ((side.cut count second).1 ++ (first ++ (side.cut count second).2)).Perm
          (first ++ ((side.cut count second).1 ++ (side.cut count second).2)) :=
        List.perm_append_comm_assoc _ _ _
      exact (side.join_perm _ _).trans
        (hmerged.trans (hmove.trans ((side.cut_perm count second).append_left first)))
    have hswap : (second ++ first).Perm (first ++ second) := List.perm_append_comm
    rw [merge]
    dsimp only
    split
    · exact hswap
    · split
      · split
        · split
          · exact hfirst _ _ _
          · exact hsecond _ _ _
        · exact ih _ _ _ _
        · exact ih _ _ _ _
        · exact hfirst _ _ _
        · exact hsecond _ _ _
        · exact hsecond _ _ _
        · exact hfirst _ _ _
      · exact hswap

/-- Two neighbouring runs are merged into one with the members of both. -/
theorem mergeRuns_perm (less : α → α → Bool) (lead : Nat) (first second : List α) :
    (mergeRuns less lead first second).1.Perm (first ++ second) := by
  unfold mergeRuns
  dsimp only
  generalize (second.head?.map fun y => search (less y) first 0).getD 0 = settled
  rw [List.splitAt_eq]
  dsimp only
  generalize (((first.drop settled).getLast?.map fun x =>
    search (fun z => !less z x) second (second.length - 1)).getD 0) = opened
  rw [List.splitAt_eq]
  dsimp only
  -- what lies between the parts that stay in their places
  have hbetween : ∀ inner : List α,
      inner.Perm (first.drop settled ++ second.take opened) →
      (first.take settled ++ inner ++ second.drop opened).Perm (first ++ second) := by
    intro inner hinner
    have hends : first.take settled ++ (first.drop settled ++ second.take opened) ++
        second.drop opened = first ++ second := by
      rw [← List.append_assoc, List.take_append_drop, List.append_assoc, List.take_append_drop]
    have hall := (hinner.append_left (first.take settled)).append_right (second.drop opened)
    rwa [hends] at hall
  generalize first.drop settled = first' at hbetween ⊢
  generalize second.take opened = second' at hbetween ⊢
  apply hbetween
  split
  · exact List.Perm.refl _
  · next hfilled =>
    split
    -- the first member of the second run stays where it is
    · have hmerged := (merge_perm less .front (4 * (first'.length + second'.length)) (.single 0 0)
        lead first' (second'.drop 1)).append_left (second'.take 1)
      have hmove : (second'.take 1 ++ (first' ++ second'.drop 1)).Perm
          (first' ++ (second'.take 1 ++ second'.drop 1)) := List.perm_append_comm_assoc _ _ _
      rw [List.take_append_drop] at hmove
      exact hmerged.trans hmove
    -- the last member of the first run stays where it is
    · have hne : first' ≠ [] := by
        rintro rfl
        exact hfilled rfl
      have hlast : first'.dropLast ++ first'.getLast?.toList = first' := by
        rw [List.getLast?_eq_some_getLast hne]
        exact List.dropLast_append_getLast hne
      have hmerged := (merge_perm less .back (4 * (first'.length + second'.length)) (.single 0 0)
        lead first'.dropLast second').append_right first'.getLast?.toList
      have hmove : (first'.dropLast ++ second' ++ first'.getLast?.toList).Perm
          (first'.dropLast ++ first'.getLast?.toList ++ second') := by
        rw [List.append_assoc, List.append_assoc]
        exact List.perm_append_comm.append_left first'.dropLast
      rw [hlast] at hmove
      exact hmerged.trans hmove

/-! ### Merging all runs -/

/-- The members of waiting runs, of which the last one comes first. -/
def waitingMembers (waiting : List (Waiting α)) : List α := waiting.flatMap Waiting.run

/-- Where two neighbouring runs are merged, the waiting members stay. -/
theorem waitingMembers_merged (less : α → α → Bool) (lead : Nat) (last before : Waiting α)
    (others : List (Waiting α)) (start depth : Nat) :
    (waitingMembers (⟨(mergeRuns less lead before.run last.run).1, start, depth⟩ :: others)).Perm
      (waitingMembers (last :: before :: others)) := by
  have hmerged := (mergeRuns_perm less lead before.run last.run).trans List.perm_append_comm
  have hall := hmerged.append_right (waitingMembers others)
  rw [List.append_assoc] at hall
  exact hall

theorem mergeDeeper_perm (less : α → α → Bool) (depth fuel lead : Nat)
    (waiting : List (Waiting α)) :
    (waitingMembers (mergeDeeper less depth fuel lead waiting).1).Perm
      (waitingMembers waiting) := by
  induction fuel generalizing lead waiting with
  | zero => exact List.Perm.refl _
  | succ fuel ih =>
    match waiting with
    | [] => exact List.Perm.refl _
    | [last] => exact List.Perm.refl _
    | last :: before :: others =>
      rw [mergeDeeper]
      split
      · exact (ih _ _).trans (waitingMembers_merged less lead last before others
          before.start before.depth)
      · exact List.Perm.refl _

theorem await_perm (less : α → α → Bool) (length lead : Nat) (waiting : List (Waiting α))
    (run : List α) : (waitingMembers (await less length lead waiting run).1).Perm
      (run ++ waitingMembers waiting) := by
  match waiting with
  | [] => exact List.Perm.refl _
  | last :: others =>
    rw [await]
    have hdeeper := mergeDeeper_perm less
      (depthOf length length (2 * last.start + last.run.length)
        (2 * last.start + last.run.length + last.run.length + run.length))
      (last :: others).length lead (last :: others)
    split
    · next last' others' lead' heq =>
      rw [heq] at hdeeper
      exact hdeeper.append_left run
    · next lead' heq =>
      rw [heq] at hdeeper
      exact hdeeper.append_left run

theorem mergeAll_perm (less : α → α → Bool) (fuel lead : Nat) (waiting : List (Waiting α)) :
    (mergeAll less fuel lead waiting).Perm (waitingMembers waiting) := by
  -- runs that are not merged any more are only put behind each other
  have hrest (waiting : List (Waiting α)) :
      (waiting.reverse.map Waiting.run).flatten.Perm (waitingMembers waiting) := by
    rw [← List.flatMap_def]
    exact (List.reverse_perm waiting).flatMap_right Waiting.run
  have hlast (lead : Nat) (last before : Waiting α) :
      (mergeRuns less lead before.run last.run).1.Perm (waitingMembers [last, before]) := by
    have hmerged := waitingMembers_merged less lead last before [] 0 0
    rwa [waitingMembers, List.flatMap_singleton] at hmerged
  induction fuel generalizing lead waiting with
  | zero =>
    match waiting with
    | [] => exact hrest []
    | [last] => exact hrest [last]
    | [last, before] => exact hlast lead last before
    | last :: before :: third :: others => exact hrest (last :: before :: third :: others)
  | succ fuel ih =>
    match waiting with
    | [] => exact hrest []
    | [last] => exact hrest [last]
    | [last, before] => exact hlast lead last before
    | last :: before :: third :: others =>
      rw [mergeAll]
      split
      · have hmerged := (waitingMembers_merged less lead before third others third.start
          third.depth).append_left last.run
        exact (ih _ _).trans hmerged
      · have hmerged := waitingMembers_merged less lead last before (third :: others) before.start
          before.depth
        exact (ih _ _).trans hmerged

/-- Cutting a row into runs that wait to be merged loses no member: every run takes something of the
row away, so the bound on the runs is enough. -/
theorem sortFrom_perm (less : α → α → Bool) (length fuel lead : Nat)
    (waiting : List (Waiting α)) {row : List α} (h : row.length ≤ fuel) :
    (sortFrom less length fuel lead waiting row).Perm (row ++ waitingMembers waiting) := by
  induction fuel generalizing lead waiting row with
  | zero =>
    have hnil : row = [] := List.length_eq_zero_iff.1 (Nat.le_zero.1 h)
    rw [hnil]
    exact mergeAll_perm less waiting.length lead waiting
  | succ fuel ih =>
    cases row with
    | nil => exact mergeAll_perm less waiting.length lead waiting
    | cons x xs =>
      obtain ⟨hrow, hshorter⟩ := nextRun_perm less (leastLength length length false)
        (List.cons_ne_nil x xs)
      rw [sortFrom]
      dsimp only
      generalize nextRun less (leastLength length length false) (x :: xs) = next at hrow hshorter ⊢
      have hawait := await_perm less length lead waiting next.1
      have hrest : next.2.length ≤ fuel := by
        rw [List.length_cons] at h hshorter
        omega
      have hmove : (next.2 ++ (next.1 ++ waitingMembers waiting)).Perm
          (next.1 ++ next.2 ++ waitingMembers waiting) := by
        rw [List.append_assoc]
        exact List.perm_append_comm_assoc _ _ _
      have hstep := (hawait.append_left next.2).trans (hmove.trans (hrow.append_right _))
      exact (ih _ _ hrest).trans hstep

/-- **Members.** Sorting by merging runs keeps the members of a row. -/
theorem sort_perm (less : α → α → Bool) (row : List α) : (sort less row).Perm row := by
  have hall := sortFrom_perm less row.length row.length longLead [] (Nat.le_refl row.length)
  rwa [waitingMembers, List.flatMap_nil, List.append_nil] at hall

end NodeForge.Runs
