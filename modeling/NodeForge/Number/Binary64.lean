/-!
# Binary64 numbers and exact arithmetic

A finite double is `m · 2^q`. `Binary64.decode` reads `m` and `q` off its bits, and
`Binary64.ofRatio` goes the other way: it gives the double nearest to a quotient of two naturals,
a tie going to the even significand. Both work on naturals alone, so nothing depends on how
floating-point division rounds.
-/

namespace NodeForge.Binary64

/-- A power of two. -/
def twoPow (n : Nat) : Nat := Nat.pow 2 n

/-- A power of ten. -/
def tenPow (n : Nat) : Nat := Nat.pow 10 n

/-- What the bits of a double stand for. -/
inductive Form where
  /-- Not a number. -/
  | nan
  /-- An infinity, negative or not. -/
  | infinite (negative : Bool)
  /-- The value `significand · 2^exponent`, negated or not. The flag `lowest` says that the
  significand is the least of its binade, so that the gap below is half the gap above. -/
  | finite (negative : Bool) (significand : Nat) (exponent : Int) (lowest : Bool)
deriving Repr, DecidableEq

/-- Reads the bits of a double. -/
def decode (x : Float) : Form :=
  let bits : Nat := x.toBits.toNat
  let negative := bits / twoPow 63 == 1
  let field : Nat := bits / twoPow 52 % twoPow 11
  let fraction : Nat := bits % twoPow 52
  if field = 2047 then
    if fraction = 0 then .infinite negative else .nan
  else if field = 0 then .finite negative fraction (-1074) false
  else .finite negative (twoPow 52 + fraction) ((field : Int) - 1075) (fraction == 0 && field != 1)

/-- The quotient rounded to the nearest natural, a tie to the even one. -/
def divRound (num den : Nat) : Nat :=
  let q := num / den
  let r := num % den
  if 2 * r < den then q
  else if den < 2 * r then q + 1
  else if q % 2 = 0 then q else q + 1

/-- The exponent `q` with `2^52 ≤ num / den / 2^q < 2^53`, but at least `-1074`. -/
def exponentFor (num den : Nat) : Int :=
  let guess : Int := (num.log2 : Int) - (den.log2 : Int) - 52
  let scaled :=
    if 0 ≤ guess then (num, den * twoPow guess.toNat) else (num * twoPow (-guess).toNat, den)
  let exact := if scaled.1 < scaled.2 * twoPow 52 then guess - 1 else guess
  max exact (-1074)

/-- The bits of the double nearest to `num / den`; what is too large is infinite. -/
def bitsOfRatio (num den : Nat) : Nat :=
  if num = 0 then 0
  else
    let q := exponentFor num den
    let m :=
      if 0 ≤ q then divRound num (den * twoPow q.toNat)
      else divRound (num * twoPow (-q).toNat) den
    min ((q + 1074).toNat * twoPow 52 + m) (2047 * twoPow 52)

/-- The double nearest to `num / den`, negated or not. -/
def ofRatio (negative : Bool) (num den : Nat) : Float :=
  Float.ofBits (UInt64.ofNat (bitsOfRatio num den + if negative then twoPow 63 else 0))

/-- The double nearest to `coefficient · 10^exponent`. Exponents far outside the range of
doubles are cut, since they give zero or infinity whatever their size. -/
def ofDecimal (negative : Bool) (coefficient : Nat) (exponent : Int) : Float :=
  let size : Int := (coefficient.log2 : Int) / 3 + exponent
  if coefficient = 0 ∨ size < -400 then ofRatio negative 0 1
  else if 800 < exponent then ofRatio negative (tenPow 400) 1
  else if 0 ≤ exponent then ofRatio negative (coefficient * tenPow exponent.toNat) 1
  else ofRatio negative coefficient (tenPow (-exponent).toNat)

/-- The double nearest to an integer. -/
def ofInt (i : Int) : Float := ofRatio (decide (i < 0)) i.natAbs 1

end NodeForge.Binary64
