import NodeForge.Number.Digits
import NodeForge.Yaml.Cursor
import NodeForge.Yaml.Tag

/-!
# The content of a scalar

What the text of a scalar means under its tag. The tag may have been given by hand, so the text need
not look like a value of its kind; then there is no such value, and `Trouble` says why.
-/

namespace NodeForge.Yaml.Content

/-- A result of a content that may be wrong for its tag. -/
def orBad {α : Type} (r : Option α) : Read α :=
  match r with
  | some a => .ok a
  | none => .error (.fault .badContent)

/-! ### Truth values and numbers -/

/-- The words for truth values, in small letters. -/
def boolWords : List (Text × Bool) :=
  [("yes", true), ("no", false), ("true", true), ("false", false), ("on", true), ("off", false)]

/-- A truth value. -/
def bool (text : Text) : Read Bool :=
  match boolWords.lookup (Text.lower text) with
  | some b => .ok b
  | none => .error (.fault .absentKey)

/-- The text of a number without the underscores that group its digits. -/
def ungrouped (text : Text) : Text := text.filter (· != Sign.char '_')

/-- The value of parts to the base sixty, the first one counting most. -/
def sixties (parts : List Int) : Int := parts.foldl (fun n d => 60 * n + d) 0

/-- A whole number without its sign: with a mark for its base, octal behind a zero, to the base
sixty between colons, or decimal. -/
def magnitude (text : List Char) : Read Int :=
  match text with
  | [] => .error (.fault .emptyContent)
  | ['0'] => .ok 0
  | '0' :: 'b' :: digits => orBad (Digits.int? 2 digits)
  | '0' :: 'x' :: digits => orBad (Digits.int? 16 digits)
  | '0' :: _ => orBad (Digits.int? 8 text)
  | _ =>
    if text.contains ':' then
      sixties <$> orBad ((Rows.splitAt ':' text).mapM (Digits.int? 10))
    else orBad (Digits.int? 10 text)

/-- A whole number. -/
def int (text : Text) : Read Int := do
  let (negative, digits) := Digits.sign (ungrouped text).shown
  let n ← magnitude digits
  return if negative then -n else n

/-- The value of parts to the base sixty, added up from the last one on; `weight` is the weight of
the next, which must not be too large. -/
def addSixties (sum : Float) (weight : Nat) : List Float → Read Float
  | [] => .ok sum
  | part :: parts =>
    let factor := Binary64.ofInt weight
    if factor == Digits.infinity then .error (.fault .outOfRange)
    else addSixties (sum + part * factor) (60 * weight) parts

/-- The text of a floating-point number as it is read: in small letters, and not grouped. -/
def floatText (text : Text) : List Char := (Text.lower (ungrouped text)).shown

/-- Whether a text is the word for what is no number. -/
def isNoNumber (text : Text) : Bool := (Digits.sign (floatText text)).2 == ".nan".toList

/-- A floating-point number. -/
def float (text : Text) : Read Float := do
  let plain := floatText text
  if plain.isEmpty then throw (.fault .emptyContent)
  let (negative, digits) := Digits.sign plain
  let x ←
    if digits == ".inf".toList then pure Digits.infinity
    else if digits == ".nan".toList then pure Digits.notANumber
    else if digits.contains ':' then do
      let parts ← orBad ((Rows.splitAt ':' digits).mapM Digits.float?)
      addSixties 0 1 parts.reverse
    else orBad (Digits.float? digits)
  return if negative then -x else x

/-! ### Dates -/

/-- A row of digits, as many as there are between two bounds. -/
def digits (least most : Nat) (text : List Char) : Option (Nat × List Char) :=
  let row := (text.take most).takeWhile Char.isDigit
  if row.length < least then none else some (Json.digitsValue row, text.drop row.length)

/-- What follows a mark that has to come next. -/
def mark (c : Char) (text : List Char) : Option (List Char) :=
  if text.head? = some c then some text.tail else none

/-- A fraction of a second in microseconds, if there is one. -/
def microseconds : List Char → Nat × List Char
  | '.' :: rest =>
    let row := rest.takeWhile Char.isDigit
    let six := (row ++ List.replicate 6 '0').take 6
    (if row.isEmpty then 0 else Json.digitsValue six, rest.drop row.length)
  | rest => (0, rest)

/-- The distance from universal time in minutes, at the end of a moment. -/
def offset (text : List Char) : Option (Option Int) := do
  if text.isEmpty then return none
  match text.dropWhile Plain.isSpace with
  | ['Z'] => return some 0
  | c :: rest => do
    if !Plain.isSign c then none
    let (hours, rest) ← digits 1 2 rest
    let minutes ←
      match rest with
      | [] => some 0
      | ':' :: rest => do
        let (minutes, rest) ← digits 2 2 rest
        if rest.isEmpty then some minutes else none
      | _ => none
    let n : Int := hours * 60 + minutes
    return some (if c == '-' then -n else n)
  | [] => none

/-- The parts of a date or of a moment as they are written. -/
def timestamp? (text : List Char) : Option (Date × Option Moment) := do
  let (year, rest) ← digits 4 4 text
  let (month, rest) ← digits 1 2 (← mark '-' rest)
  let (day, rest) ← digits 1 2 (← mark '-' rest)
  let date : Date := ⟨year, month, day⟩
  if rest.isEmpty then return (date, none)
  let (hour, rest) ← digits 1 2 (← Plain.dateEnd rest)
  let (minute, rest) ← digits 2 2 (← mark ':' rest)
  let (second, rest) ← digits 2 2 (← mark ':' rest)
  let (micro, rest) := microseconds rest
  return (date, some ⟨date, hour, minute, second, micro, ← offset rest⟩)

/-- Whether there is such a time of a day; no place is a whole day away from universal time. -/
def isTimeOfDay (m : Moment) : Bool :=
  decide (m.hour < 24) && decide (m.minute < 60) && decide (m.second < 60) &&
    (m.offset.all fun o => decide (o.natAbs < 24 * 60))

/-- A date or a moment. -/
def timestamp (text : Text) : Read Scalar :=
  match timestamp? (Plain.withoutLineEnd text.shown) with
  | none => .error (.fault .noSuchMember)
  | some (date, moment) =>
    if !date.isValid then .error (.fault .badContent)
    else
      match moment with
      | none => .ok (.date date)
      | some m => if isTimeOfDay m then .ok (.moment m) else .error (.fault .badContent)

/-! ### Bytes -/

/-- The value of a digit to the base sixty-four. -/
def sextet? (c : Char) : Option Nat :=
  if c.isUpper then some (c.toNat - 65)
  else if c.isLower then some (c.toNat - 71)
  else if c.isDigit then some (c.toNat + 4)
  else if c == '+' then some 62
  else if c == '/' then some 63
  else none

/-- The bytes behind digits to the base sixty-four, four of which give three. `place` is the place
among the four, `left` the bits that are left over, and `pads` the number of equals signs that have
come last; with them the four may be filled up, and then all else is passed over. Other characters
do not count. -/
def bytesFrom : (place left pads : Nat) → List Char → Option (List UInt8)
  | place, _, _, [] => if place = 0 then some [] else none
  | place, left, pads, c :: rest =>
    if c == '=' then
      if 2 ≤ place && 4 ≤ place + pads + 1 then some []
      else bytesFrom place left (if 2 ≤ place then pads + 1 else pads) rest
    else
      match sextet? c with
      | none => bytesFrom place left pads rest
      | some n =>
        match place with
        | 0 => bytesFrom 1 n 0 rest
        | 1 => (bytesFrom 2 (n % 16) 0 rest).map (UInt8.ofNat (left * 4 + n / 16) :: ·)
        | 2 => (bytesFrom 3 (n % 4) 0 rest).map (UInt8.ofNat (left * 16 + n / 4) :: ·)
        | _ => (bytesFrom 0 0 0 rest).map (UInt8.ofNat (left * 64 + n) :: ·)

/-- Bytes to the base sixty-four. -/
def bytes (text : Text) : Read (List UInt8) :=
  let chars := text.shown
  if chars.all (·.toNat < 0x80) then
    match bytesFrom 0 0 0 chars with
    | some b => .ok b
    | none => .error .malformed
  else .error .malformed

/-! ### All kinds -/

/-- The scalar that a text means under a tag. A result that is no number is one of its own, which
`own` names, unless it is written as such. -/
def scalar (tag : Tag) (text : Text) (own : Nat) : Read Scalar :=
  match tag with
  | .text => .ok (.str text)
  | .null => .ok .null
  | .bool => .bool <$> bool text
  | .int => .int <$> int text
  | .float => Scalar.ofFloat (if isNoNumber text then 0 else own) <$> float text
  | .timestamp => timestamp text
  | .binary => .bytes <$> bytes text
  | .list | .map | .set | .pairs | .merge | .value | .unknown => .error .malformed

end NodeForge.Yaml.Content
