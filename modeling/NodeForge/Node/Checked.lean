import NodeForge.Failure

/-!
# Checking several things at once

A value that is read into the node model may be wrong in several places, and all of them are to be
told. A `Checked` result is a value or the problems found, and putting two of them together keeps
the problems of both in their order.
-/

namespace NodeForge

/-- A value, or all that is wrong with what it was read from. -/
inductive Checked (α : Type) where
  | good (value : α)
  | bad (problems : List Problem)

namespace Checked

variable {α β : Type}

/-- Applies a function to a checked value. -/
def map (f : α → β) : Checked α → Checked β
  | .good a => .good (f a)
  | .bad ps => .bad ps

/-- Applies a checked function to a checked value, keeping the problems of both. -/
def apply : Checked (α → β) → Checked α → Checked β
  | .good f, .good a => .good (f a)
  | .good _, .bad ps => .bad ps
  | .bad ps, .good _ => .bad ps
  | .bad ps, .bad qs => .bad (ps ++ qs)

instance : Applicative Checked where
  pure := .good
  map := map
  seq f a := apply f (a ())

/-- Tells problems from further up: the step to where they are comes first in their way. -/
def under (step : Text) : Checked α → Checked α
  | .good a => .good a
  | .bad ps => .bad (ps.map fun p => { p with path := step :: p.path })

/-- One problem at the value itself. -/
def misfit (m : Misfit) : Checked α := .bad [⟨[], m⟩]

/-- The value, or a problem at the value itself. -/
def ofOption (m : Misfit) : Option α → Checked α
  | some a => .good a
  | none => misfit m

/-- Checks all members of a row. -/
def all (check : α → Checked β) : List α → Checked (List β)
  | [] => .good []
  | a :: as => List.cons <$> check a <*> all check as

/-- The value, unless there are problems. -/
def toExcept : Checked α → Except Failure α
  | .good a => .ok a
  | .bad ps => .error (.refused ps)

@[simp] theorem map_good (f : α → β) (a : α) : f <$> Checked.good a = .good (f a) := rfl

@[simp] theorem seq_good (f : α → β) (a : α) :
    Checked.good f <*> Checked.good a = .good (f a) := rfl

@[simp] theorem under_good (step : Text) (a : α) : under step (.good a) = .good a := rfl

theorem all_good {check : α → Checked β} {as : List α} {bs : List β}
    (h : as.map check = bs.map .good) : all check as = .good bs := by
  induction as generalizing bs with
  | nil => cases bs <;> simp_all [all]
  | cons a as ih =>
    cases bs with
    | nil => simp at h
    | cons b bs =>
      simp only [List.map_cons, List.cons.injEq] at h
      simp [all, h.1, ih h.2]

end Checked

end NodeForge
