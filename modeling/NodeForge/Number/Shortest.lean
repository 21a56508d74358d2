import NodeForge.Number.Binary64

/-!
# The shortest decimal that reads back

A double stands for all reals that round to it. `Shortest.ofFinite` looks for the decimal with the
fewest digits among them: for one digit, two digits and so on it tests the two neighbours of the
value on the grid of decimals with that many digits, and takes the first grid with a hit. Of two
hits the nearer one counts, and of two equally near ones the even one. Seventeen digits always
suffice.
-/

namespace NodeForge.Shortest

open Binary64 (twoPow tenPow)

/-- The decimal `coefficient · 10^exponent`. -/
structure Decimal where
  coefficient : Nat
  exponent : Int
deriving Repr, DecidableEq

/-- The reals that round to a double, and the double itself, over a common denominator: the
numerators of the lower end, the value and the upper end. The ends belong to the interval when
`closed` holds. -/
structure Interval where
  lower : Nat
  value : Nat
  upper : Nat
  denominator : Nat
  closed : Bool

/-- The reals that round to `m · 2^q`. -/
def interval (m : Nat) (q : Int) (lowest : Bool) : Interval :=
  let scale := if 2 ≤ q then twoPow (q - 2).toNat else 1
  { lower := (4 * m - if lowest then 1 else 2) * scale
    value := 4 * m * scale
    upper := (4 * m + 2) * scale
    denominator := if 2 ≤ q then 1 else twoPow (2 - q).toNat
    closed := m % 2 == 0 }

/-- Whether `n / d` lies in the interval. -/
def Interval.holds (i : Interval) (n d : Nat) : Bool :=
  if i.closed then
    decide (i.lower * d ≤ n * i.denominator) && decide (n * i.denominator ≤ i.upper * d)
  else decide (i.lower * d < n * i.denominator) && decide (n * i.denominator < i.upper * d)

/-- The number of decimal digits of a natural; zero has none. -/
def digitCount (n : Nat) : Nat := if n = 0 then 0 else (Nat.repr n).length

/-- The least number of steps, from `k` on and within `fuel`, by which `num` has to be multiplied
by ten to reach `den`. -/
def stepsToReach (den : Nat) : Nat → Nat → Nat
  | 0, _ => 0
  | fuel + 1, num => if den ≤ num then 0 else stepsToReach den fuel (10 * num) + 1

/-- The place of the leading digit: the least `d` with `num / den < 10^d`. -/
def leadingPlace (num den : Nat) : Int :=
  if den ≤ num then digitCount (num / den) else 1 - (stepsToReach den 400 num : Int)

/-- The hit on the grid with `places` digits, if there is one. -/
def onGrid (i : Interval) (lead : Int) (places : Nat) : Option Decimal :=
  let unit : Int := lead - (places : Int)
  let num := if 0 ≤ unit then i.value else i.value * tenPow (-unit).toNat
  let den := if 0 ≤ unit then i.denominator * tenPow unit.toNat else i.denominator
  let below := num / den
  let rest := num % den
  let inside (c : Nat) : Bool :=
    if 0 ≤ unit then i.holds (c * tenPow unit.toNat) 1 else i.holds c (tenPow (-unit).toNat)
  let preferBelow := decide (2 * rest < den) || (2 * rest == den && below % 2 == 0)
  match inside below, inside (below + 1) with
  | true, true => some ⟨if preferBelow then below else below + 1, unit⟩
  | true, false => some ⟨below, unit⟩
  | false, true => some ⟨below + 1, unit⟩
  | false, false => none

/-- The first hit on the grids with `places`, `places + 1`, … digits. -/
def firstHit (i : Interval) (lead : Int) : Nat → Nat → Decimal
  | 0, places => ⟨i.value / i.denominator, places⟩
  | fuel + 1, places => (onGrid i lead places).getD (firstHit i lead fuel (places + 1))

/-- The shortest decimal that rounds to `m · 2^q`. -/
def ofFinite (m : Nat) (q : Int) (lowest : Bool) : Decimal :=
  if m = 0 then ⟨0, 0⟩
  else
    let i := interval m q lowest
    firstHit i (leadingPlace i.value i.denominator) 18 1

end NodeForge.Shortest
