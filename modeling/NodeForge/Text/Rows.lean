/-!
# Operations on rows

Cutting, trimming and replacing in rows of any kind of member. Texts are rows of signs and what a
reader looks at is a row of characters, so both use these. Everything is written by recursion on
the row. The law `intercalate_splitAt` says that cutting loses nothing.
-/

namespace NodeForge.Rows

variable {α : Type}

/-! ### Cutting -/

/-- The pieces between the occurrences of `mark`, empty ones included: one more than there are
marks. -/
def splitAt [DecidableEq α] (mark : α) : List α → List (List α)
  | [] => [[]]
  | c :: cs =>
    if c = mark then [] :: splitAt mark cs
    else
      match splitAt mark cs with
      | [] => [[c]]
      | piece :: rest => (c :: piece) :: rest

/-- The pieces of a row between the members that satisfy `isMark`; empty pieces are left out. -/
def piecesBetween (isMark : α → Bool) : List α → List (List α)
  | [] => []
  | [c] => if isMark c then [] else [[c]]
  | c :: d :: cs =>
    if isMark c then piecesBetween isMark (d :: cs)
    else if isMark d then [c] :: piecesBetween isMark (d :: cs)
    else
      match piecesBetween isMark (d :: cs) with
      | [] => [[c]]
      | piece :: rest => (c :: piece) :: rest

/-- The row before the first `mark` and the row after it. -/
def cutAtFirst [DecidableEq α] (mark : α) : List α → List α × List α
  | [] => ([], [])
  | c :: cs =>
    if c = mark then ([], cs)
    else
      let (before, after) := cutAtFirst mark cs
      (c :: before, after)

/-- The row up to the last `mark`, that mark included, and the row after it. -/
def cutAtLast [DecidableEq α] (mark : α) : List α → List α × List α
  | [] => ([], [])
  | c :: cs =>
    let (before, after) := cutAtLast mark cs
    if before.isEmpty && c ≠ mark then ([], c :: after) else (c :: before, after)

/-- The row without the members at its end that satisfy `p`. -/
def trimEndWhere (p : α → Bool) (row : List α) : List α := (row.reverse.dropWhile p).reverse

/-- The row without the members at either end that satisfy `p`. -/
def trimWhere (p : α → Bool) (row : List α) : List α := trimEndWhere p (row.dropWhile p)

/-- The row without `ending`, where it ends so. -/
def dropEnding [BEq α] (ending row : List α) : List α :=
  if ending.isSuffixOf row then row.take (row.length - ending.length) else row

/-! ### Replacing -/

/-- Replaces `pattern` by `new` from the left, after the next `skip` members have been passed
over. -/
def replaceFrom [BEq α] (pattern new : List α) : Nat → List α → List α
  | _, [] => []
  | skip + 1, _ :: cs => replaceFrom pattern new skip cs
  | 0, c :: cs =>
    if pattern.isPrefixOf (c :: cs) then new ++ replaceFrom pattern new (pattern.length - 1) cs
    else c :: replaceFrom pattern new 0 cs

/-- Replaces every occurrence of a non-empty `pattern`, from the left and without overlap. -/
def replace [BEq α] (pattern new row : List α) : List α := replaceFrom pattern new 0 row

/-- Replaces the first occurrence of `pattern`. -/
def replaceFirst [BEq α] (pattern new : List α) : List α → List α
  | [] => []
  | c :: cs =>
    if pattern.isPrefixOf (c :: cs) then new ++ (c :: cs).drop pattern.length
    else c :: replaceFirst pattern new cs

/-- Whether `part` occurs somewhere in a row. -/
def contains [BEq α] (part : List α) : List α → Bool
  | [] => part.isEmpty
  | c :: cs => part.isPrefixOf (c :: cs) || contains part cs

/-! ### Laws -/

theorem splitAt_ne_nil [DecidableEq α] (mark : α) (row : List α) : splitAt mark row ≠ [] := by
  cases row with
  | nil => simp [splitAt]
  | cons c cs =>
    unfold splitAt
    split
    · simp
    · split <;> simp

/-- Joining the pieces with the mark gives the row back. -/
theorem intercalate_splitAt [DecidableEq α] (mark : α) (row : List α) :
    List.intercalate [mark] (splitAt mark row) = row := by
  induction row with
  | nil => rfl
  | cons c cs ih =>
    unfold splitAt
    split
    · next h =>
      subst h
      match hs : splitAt c cs with
      | [] => exact absurd hs (splitAt_ne_nil c cs)
      | piece :: rest =>
        rw [hs] at ih
        simp [List.intercalate, List.intersperse] at ih ⊢
        exact ih
    · match hs : splitAt mark cs with
      | [] => exact absurd hs (splitAt_ne_nil mark cs)
      | [piece] =>
        rw [hs] at ih
        simp [List.intercalate, List.intersperse] at ih ⊢
        exact ih
      | piece :: next :: rest =>
        rw [hs] at ih
        simp [List.intercalate, List.intersperse] at ih ⊢
        exact ih

end NodeForge.Rows
