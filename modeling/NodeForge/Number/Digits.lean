import NodeForge.Number.Binary64
import NodeForge.Text.Basic

/-!
# Reading numbers

Numbers as they are written by hand: with white space around them, a sign, and digits of any
script. Whole numbers may be in any base up to 36; those in base 2, 8 and 16 may carry the mark of
their base. Floating-point numbers may have a point and an exponent, or be one of the names for
infinity and for what is no number.
-/

namespace NodeForge.Digits

/-- The longest row of decimal digits that is read as a number. -/
def longest : Nat := 4300

/-- The value of a digit; letters go on from ten. -/
def value? (c : Char) : Option Nat :=
  if 'a' ≤ c ∧ c ≤ 'z' then some (c.toNat - 87)
  else if 'A' ≤ c ∧ c ≤ 'Z' then some (c.toNat - 55)
  else Letter.decimalValue? c

/-- The number that a row of digits stands for. Only bases that are powers of two are free of the
limit on the length. -/
def natural? (base : Nat) (digits : List Char) : Option Nat := do
  if digits.isEmpty || (base == 10 && decide (longest < digits.length)) then none
  let values ← digits.mapM value?
  if values.all (· < base) then some (values.foldl (fun n d => base * n + d) 0) else none

/-- A blank around a number. Of ASCII these are the space and the five characters from the tab to
the carriage return; the separators before the space are none. -/
def isBlank (c : Char) : Bool :=
  if c.toNat < 0x80 then c == ' ' || (9 ≤ c.toNat && c.toNat ≤ 13) else Letter.isBlank c

/-- Splits a sign off. -/
def sign : List Char → Bool × List Char
  | '-' :: rest => (true, rest)
  | '+' :: rest => (false, rest)
  | text => (false, text)

/-- The letter that marks a base behind a zero. -/
def baseMark? : Nat → Option Char
  | 2 => some 'b'
  | 8 => some 'o'
  | 16 => some 'x'
  | _ => none

/-- The digits without the mark of their base. -/
def withoutMark (base : Nat) : List Char → List Char
  | '0' :: c :: rest => if baseMark? base = some c.toLower then rest else '0' :: c :: rest
  | digits => digits

/-- A whole number. -/
def int? (base : Nat) (text : List Char) : Option Int :=
  let (negative, digits) := sign (Rows.trimWhere isBlank text)
  (natural? base (withoutMark base digits)).map fun n => if negative then -(n : Int) else n

/-- The digits of a row and what follows them. -/
def row (text : List Char) : List Nat × List Char :=
  ((text.takeWhile fun c => (Letter.decimalValue? c).isSome).filterMap Letter.decimalValue?,
    text.dropWhile fun c => (Letter.decimalValue? c).isSome)

/-- The number that a row of decimal digits stands for. -/
def ofRow (digits : List Nat) : Nat := digits.foldl (fun n d => 10 * n + d) 0

/-- The places behind a point, if there is one. -/
def fraction : List Char → List Nat × List Char
  | '.' :: rest => row rest
  | text => ([], text)

/-- The exponent at the end of a number. -/
def exponent? : List Char → Option Int
  | [] => some 0
  | c :: rest =>
    let (negative, rest) := sign rest
    let (digits, rest) := row rest
    if (c == 'e' || c == 'E') && !digits.isEmpty && rest.isEmpty then
      some (if negative then -(ofRow digits : Int) else ofRow digits)
    else none

/-- Infinity. -/
def infinity : Float := Float.ofBits 0x7FF0000000000000

/-- What is no number. -/
def notANumber : Float := Float.ofBits 0x7FF8000000000000

/-- A floating-point number. -/
def float? (text : List Char) : Option Float :=
  let (negative, text) := sign (Rows.trimWhere isBlank text)
  let word := Text.lower (Text.ofChars text)
  if word == "inf" || word == "infinity" then some (if negative then -infinity else infinity)
  else if word == "nan" then some notANumber
  else
    let (whole, rest) := row text
    let (places, rest) := fraction rest
    if whole.isEmpty && places.isEmpty then none
    else
      (exponent? rest).map fun e =>
        Binary64.ofDecimal negative (ofRow (whole ++ places)) (e - (places.length : Int))

end NodeForge.Digits
