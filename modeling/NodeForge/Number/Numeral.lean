import NodeForge.Number.Shortest
import NodeForge.Text.Basic

/-!
# How numbers are written

An integer is written in decimal, as long as it does not need too many digits. A double is written
with the shortest digits that read back: positionally, with at least one digit after the point, when
the exponent of its leading digit is from -4 to 15, and otherwise with an exponent of a sign and at
least two digits.
-/

namespace NodeForge.Numeral

/-- The least number that cannot be written: with 4301 digits. -/
def limit : Nat := Nat.pow (Binary64.tenPow 43) 100

/-- A decimal number without a sign. -/
def ofNat (n : Nat) : Text := Nat.repr n

/-- A decimal integer. -/
def ofInt (i : Int) : Text :=
  match i with
  | .ofNat n => ofNat n
  | .negSucc n => "-" ++ ofNat (n + 1)

/-- The last `width` or more digits of a number, with zeros in front where it has fewer. -/
def padded (width n : Nat) : Text :=
  let digits := ofNat n
  Text.repeated '0' (width - digits.length) ++ digits

/-- The digits without the zeros at their end, and the number of zeros dropped. -/
def withoutEndZeros (digits : Text) : Text × Nat :=
  let kept : Text := Rows.trimEndWhere (· == Sign.char '0') digits
  (kept, digits.length - kept.length)

/-- The exponent mark, sign and digits. -/
def exponentText (e : Int) : Text :=
  (if e < 0 then "e-" else "e+") ++ padded 2 e.natAbs

/-- A decimal in the notation that its size asks for. -/
def ofDecimal (d : Shortest.Decimal) : Text :=
  let (digits, dropped) := withoutEndZeros (ofNat d.coefficient)
  if digits.isEmpty then "0.0"
  else
    let point : Int := (digits.length : Int) + d.exponent + (dropped : Int)
    if 16 < point ∨ point ≤ -4 then
      let fraction := digits.drop 1
      let places : Text := if fraction.isEmpty then [] else .char '.' :: fraction
      digits.take 1 ++ places ++ exponentText (point - 1)
    else if point ≤ 0 then
      "0." ++ Text.repeated '0' (-point).toNat ++ digits
    else
      let whole := digits.take point.toNat
      let fraction := digits.drop point.toNat
      let places : Text := if fraction.isEmpty then "0" else fraction
      whole ++ Text.repeated '0' (point.toNat - whole.length) ++ "." ++ places

/-- The names of the numbers that have no digits. -/
structure SpecialNames where
  nan : Text
  infinity : Text

/-- A double, with the given names for infinity and for what is no number. -/
def ofFloat (names : SpecialNames) (x : Float) : Text :=
  match Binary64.decode x with
  | .nan => names.nan
  | .infinite negative => (if negative then "-" else "") ++ names.infinity
  | .finite negative m q lowest =>
    (if negative then "-" else "") ++ ofDecimal (Shortest.ofFinite m q lowest)

end NodeForge.Numeral
