/-!
# Putting a row in order by merging runs

A row is cut into runs, stretches that are in order as they stand; short runs are filled up member
by member. Neighbouring runs are then merged, and when one of two runs is ahead for long, whole
stretches of it are taken at a time. Where any two members can be compared, the result is that of
every stable sort. Where some cannot be compared, the result hangs on which members are looked at,
so `sort` fixes them.
-/

namespace NodeForge.Runs

variable {α : Type}

/-! ### Runs as they stand -/

/-- The members that go on from `last` one after the other, and the rest. -/
def stretch (goesOn : α → α → Bool) (last : α) : List α → List α × List α
  | [] => ([], [])
  | x :: xs =>
    if goesOn last x then
      let (more, rest) := stretch goesOn x xs
      (x :: more, rest)
    else ([], x :: xs)

/-- The run at the start of a row, and the rest. A run that falls is turned round. -/
def leading (less : α → α → Bool) : List α → List α × List α
  | x :: y :: ys =>
    if less y x then
      let (more, rest) := stretch (fun a b => less b a) y ys
      ((x :: y :: more).reverse, rest)
    else
      let (more, rest) := stretch (fun a b => !less b a) y ys
      (x :: y :: more, rest)
  | xs => (xs, [])

/-! ### Searching -/

/-- Whether the member at a place has a property. -/
def holdsAt (p : α → Bool) (row : List α) (i : Nat) : Bool := (row[i]?).any p

/-- The first place from `low` on, before `high`, where the members come to have a property, found
by halving; the number bounds the halvings. -/
def halve (after : α → Bool) (row : List α) : Nat → (low high : Nat) → Nat
  | 0, low, _ => low
  | fuel + 1, low, high =>
    let middle := (low + high) / 2
    if high ≤ low then low
    else if holdsAt after row middle then halve after row fuel low middle
    else halve after row fuel (middle + 1) high

/-- Growing steps up to `limit` or to one that `stops`: the last step before and that one. -/
def stride (stops : Nat → Bool) (limit : Nat) : Nat → (last step : Nat) → Nat × Nat
  | 0, last, step => (last, min step limit)
  | fuel + 1, last, step =>
    if limit ≤ step || stops step then (last, min step limit)
    else stride stops limit fuel step (2 * step + 1)

/-- The place where the members of a row come to have a property. The search starts at `hint` and
strides away from it before it halves. -/
def search (after : α → Bool) (row : List α) (hint : Nat) : Nat :=
  if holdsAt after row hint then
    let (last, step) :=
      stride (fun i => !holdsAt after row (hint - i)) (hint + 1) row.length 0 1
    halve after row row.length (hint + 1 - step) (hint - last)
  else
    let (last, step) :=
      stride (fun i => holdsAt after row (hint + i)) (row.length - hint) row.length 0 1
    halve after row row.length (hint + last + 1) (hint + step)

/-! ### Filling a run up -/

/-- Puts a member into a run behind all that are not greater. -/
def insert (less : α → α → Bool) (run : List α) (x : α) : List α :=
  run.insertIdx (halve (less x) run run.length 0 run.length) x

/-- The length that runs are filled up to, for a row of a length; the number bounds the halvings.
The last parameter says whether a halving left a rest. -/
def leastLength : Nat → (length : Nat) → (rest : Bool) → Nat
  | 0, n, _ => n
  | fuel + 1, n, rest =>
    if n < 64 then (if rest then n + 1 else n)
    else leastLength fuel (n / 2) (rest || n % 2 == 1)

/-- The next run of a row, filled up to a length, and the rest. -/
def nextRun (less : α → α → Bool) (least : Nat) (row : List α) : List α × List α :=
  let (run, rest) := leading less row
  let missing := least - run.length
  ((rest.take missing).foldl (insert less) run, rest.drop missing)

/-! ### Merging two runs -/

/-- The lead after which stretches are taken, at the beginning; a stretch of this length is worth
its search. -/
def longLead : Nat := 7

/-- How members of two runs are taken. -/
inductive Pace where
  /-- One at a time; the numbers say how often in a row the first or the second run was taken
  from. -/
  | single (first second : Nat)
  /-- From now on in stretches. -/
  | toStretches
  /-- From now on one at a time again. -/
  | toSingle
  /-- Next comes a stretch of the first run. -/
  | firstStretch
  /-- Next comes one member of the second run, after a stretch of so many of the first. -/
  | secondOne (first : Nat)
  /-- Next comes a stretch of the second run, after one of so many of the first. -/
  | secondStretch (first : Nat)
  /-- Next comes one member of the first run, after stretches of so many. -/
  | firstOne (first second : Nat)

/-- The end at which members are taken. -/
inductive Side where
  | front | back
deriving DecidableEq

/-- The member at an end. -/
def Side.edge? (side : Side) (row : List α) : Option α :=
  match side with
  | .front => row.head?
  | .back => row.getLast?

/-- Cuts members off at an end: those members, and the others. -/
def Side.cut (side : Side) (count : Nat) (row : List α) : List α × List α :=
  match side with
  | .front => (row.take count, row.drop count)
  | .back => (row.drop (row.length - count), row.take (row.length - count))

/-- Puts members to the others again. -/
def Side.join (side : Side) (piece rest : List α) : List α :=
  match side with
  | .front => piece ++ rest
  | .back => rest ++ piece

/-- The number of members at an end up to where the members come to have a property, or from
there on. -/
def Side.count (side : Side) (after : α → Bool) (row : List α) : Nat :=
  match side with
  | .front => search after row 0
  | .back => row.length - search after row (row.length - 1)

/-- Whether the rest of two runs goes where it is, the second run before the first: the run that
is taken from beside its own place has one member at most, or the other one has none. -/
def Side.isOver (side : Side) (first second : List α) : Bool :=
  match side with
  | .front => second.isEmpty || first.length ≤ 1
  | .back => first.isEmpty || second.length ≤ 1

/-- Merges two runs from one end. `lead` is the lead after which stretches are taken; it comes back
as it is in the end. The first number bounds the steps. -/
def merge (less : α → α → Bool) (side : Side) :
    Nat → Pace → (lead : Nat) → (first second : List α) → List α × Nat
  | 0, _, lead, first, second => (second ++ first, lead)
  | fuel + 1, pace, lead, first, second =>
    let takeFirst (count : Nat) (pace : Pace) (lead : Nat) : List α × Nat :=
      let (piece, others) := side.cut count first
      let (merged, lead) := merge less side fuel pace lead others second
      (side.join piece merged, lead)
    let takeSecond (count : Nat) (pace : Pace) (lead : Nat) : List α × Nat :=
      let (piece, others) := side.cut count second
      let (merged, lead) := merge less side fuel pace lead first others
      (side.join piece merged, lead)
    if side.isOver first second then (second ++ first, lead)
    else
      match side.edge? first, side.edge? second with
      | some x, some y =>
        match pace with
        | .single m n =>
          if less y x == (side == .back) then
            takeFirst 1 (if lead ≤ m + 1 then .toStretches else .single (m + 1) 0) lead
          else takeSecond 1 (if lead ≤ n + 1 then .toStretches else .single 0 (n + 1)) lead
        | .toStretches => merge less side fuel .firstStretch (lead + 1) first second
        | .toSingle => merge less side fuel (.single 0 0) (lead + 1) first second
        | .firstStretch =>
          let count := side.count (less y) first
          takeFirst count (.secondOne count) (if 1 < lead then lead - 1 else lead)
        | .secondOne m => takeSecond 1 (.secondStretch m) lead
        | .secondStretch m =>
          let count := side.count (fun z => !less z x) second
          takeSecond count (.firstOne m count) lead
        | .firstOne m n =>
          takeFirst 1 (if longLead ≤ m || longLead ≤ n then .firstStretch else .toSingle) lead
      | _, _ => (second ++ first, lead)

/-- Merges two neighbouring runs. What is in its place at either end stays there, and of the rest
the shorter run is the one that is taken from beside its own place. -/
def mergeRuns (less : α → α → Bool) (lead : Nat) (first second : List α) : List α × Nat :=
  let settled := (second.head?.map fun y => search (less y) first 0).getD 0
  let (start, first) := first.splitAt settled
  let open? := first.getLast?.map fun x =>
    search (fun z => !less z x) second (second.length - 1)
  let (second, ending) := second.splitAt (open?.getD 0)
  let steps := 4 * (first.length + second.length)
  let (merged, lead) :=
    if first.isEmpty || second.isEmpty then (first ++ second, lead)
    else if first.length ≤ second.length then
      let (rest, lead) := merge less .front steps (.single 0 0) lead first (second.drop 1)
      (second.take 1 ++ rest, lead)
    else
      let (rest, lead) := merge less .back steps (.single 0 0) lead first.dropLast second
      (rest ++ first.getLast?.toList, lead)
  (start ++ merged ++ ending, lead)

/-! ### Merging all runs -/

/-- A run that waits to be merged, the number of members before it, and how deep in the row the
border to the next run lies. -/
structure Waiting (α : Type) where
  run : List α
  start : Nat
  depth : Nat

/-- How deep the border between two runs lies, when a row is halved again and again: the halvings
until their middles are apart. `a` and `b` are twice the middles, `n` is the length of the row. -/
def depthOf (n : Nat) : Nat → (a b : Nat) → Nat
  | 0, _, _ => 1
  | fuel + 1, a, b =>
    if n ≤ a then depthOf n fuel (2 * (a - n)) (2 * (b - n)) + 1
    else if n ≤ b then 1
    else depthOf n fuel (2 * a) (2 * b) + 1

/-- Merges the last waiting runs as long as the borders before them lie deeper than `depth`. -/
def mergeDeeper (less : α → α → Bool) (depth : Nat) :
    Nat → (lead : Nat) → List (Waiting α) → List (Waiting α) × Nat
  | fuel + 1, lead, last :: before :: others =>
    if depth < before.depth then
      let (run, lead) := mergeRuns less lead before.run last.run
      mergeDeeper less depth fuel lead ({ before with run } :: others)
    else (last :: before :: others, lead)
  | _, lead, waiting => (waiting, lead)

/-- Lets a run wait behind the others, the last one first. -/
def await (less : α → α → Bool) (length lead : Nat) (waiting : List (Waiting α))
    (run : List α) : List (Waiting α) × Nat :=
  match waiting with
  | [] => ([⟨run, 0, 0⟩], lead)
  | last :: _ =>
    let a := 2 * last.start + last.run.length
    let depth := depthOf length length a (a + last.run.length + run.length)
    let next := last.start + last.run.length
    match mergeDeeper less depth waiting.length lead waiting with
    | (last :: others, lead) => (⟨run, next, 0⟩ :: { last with depth } :: others, lead)
    | ([], lead) => ([⟨run, next, 0⟩], lead)

/-- Merges all waiting runs, of three runs the outer one with the shorter neighbour first. -/
def mergeAll (less : α → α → Bool) : Nat → (lead : Nat) → List (Waiting α) → List α
  | fuel + 1, lead, last :: before :: third :: others =>
    if third.run.length < last.run.length then
      let (run, lead) := mergeRuns less lead third.run before.run
      mergeAll less fuel lead (last :: { third with run } :: others)
    else
      let (run, lead) := mergeRuns less lead before.run last.run
      mergeAll less fuel lead ({ before with run } :: third :: others)
  | _, lead, [last, before] => (mergeRuns less lead before.run last.run).1
  | _, _, waiting => (waiting.reverse.map Waiting.run).flatten

/-- Cuts a row into runs and merges them; the number bounds the runs. -/
def sortFrom (less : α → α → Bool) (length : Nat) :
    Nat → (lead : Nat) → List (Waiting α) → List α → List α
  | fuel + 1, lead, waiting, x :: xs =>
    let (run, rest) := nextRun less (leastLength length length false) (x :: xs)
    let (waiting, lead) := await less length lead waiting run
    sortFrom less length fuel lead waiting rest
  | _, lead, waiting, _ => mergeAll less waiting.length lead waiting

/-- Puts a row in order. -/
def sort (less : α → α → Bool) (row : List α) : List α :=
  sortFrom less row.length row.length longLead [] row

end NodeForge.Runs
