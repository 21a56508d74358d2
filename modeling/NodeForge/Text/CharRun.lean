import NodeForge.Text.Rows

/-!
# Runs of code points

A character class or a case map of the Unicode standard is a long table with much regularity:
most of its lines are stretches of neighbours, or every second code point of a stretch. A
`CharRun` is one such stretch, and a `CaseRun` is a stretch together with the image of its first
member. Both are written in a table as one short word, so a whole table is one piece of text.

The written forms are `first`, `first-last` and `first-last/step`, in hexadecimal; a case run
adds `>image`, or `>image,image,…` where one character becomes several.
-/

namespace NodeForge

/-- The code points `first, first + step, …` up to `last`. -/
structure CharRun where
  first : Nat
  last : Nat
  step : Nat
deriving Repr, DecidableEq

/-- Whether the code point `n` lies on the run. -/
def CharRun.holds (r : CharRun) (n : Nat) : Bool :=
  decide (r.first ≤ n) && decide (n ≤ r.last) && (n - r.first) % r.step == 0

/-- A run of characters with the image of its first member: a code point, and the ones behind it
where the image is longer. The images of the others keep their distance from it. -/
structure CaseRun where
  run : CharRun
  first : Nat
  others : List Nat
deriving Repr, DecidableEq

/-- What the run makes of one of its own code points. -/
def CaseRun.image (r : CaseRun) (n : Nat) : List Char :=
  (r.first :: r.others).map fun t => Char.ofNat (t + (n - r.run.first))

/-! ### Reading the written tables -/

/-- The value of a hexadecimal digit written with a capital letter. -/
def hexDigitValue (c : Char) : Nat :=
  if c.isDigit then c.toNat - 48 else c.toNat - 55

/-- The value of a row of hexadecimal digits. -/
def hexNumber (digits : List Char) : Nat :=
  digits.foldl (fun n c => 16 * n + hexDigitValue c) 0

/-- Reads one written run. -/
def CharRun.ofWord (word : List Char) : CharRun :=
  let (range, step) := Rows.cutAtFirst '/' word
  let (first, last) := Rows.cutAtFirst '-' range
  { first := hexNumber first
    last := if last.isEmpty then hexNumber first else hexNumber last
    step := if step.isEmpty then 1 else hexNumber step }

/-- Reads one written case run. -/
def CaseRun.ofWord (word : List Char) : CaseRun :=
  let (run, image) := Rows.cutAtFirst '>' word
  let codes := (Rows.piecesBetween (· == ',') image).map hexNumber
  { run := CharRun.ofWord run
    first := codes.headD 0
    others := codes.drop 1 }

/-- The words of a written table. -/
def tableWords (table : String) : List (List Char) :=
  Rows.piecesBetween (fun c => c == ' ' || c == '\n') table.toList

/-- Reads a written class. -/
def CharRun.ofTable (table : String) : List CharRun :=
  (tableWords table).map CharRun.ofWord

/-- Reads a written case map. -/
def CaseRun.ofTable (table : String) : List CaseRun :=
  (tableWords table).map CaseRun.ofWord

end NodeForge
