import NodeForge.Document.Access
import NodeForge.Number.Digits

/-!
# Reading JSON

Reads a JSON text into a document value, keeping the order of the keys. A key that is written
again keeps its place and takes the later value. A number without point and exponent is an
integer, which must not have too many digits, any other one a double. Besides the standard words,
`NaN`, `Infinity` and `-Infinity` are read as numbers. Lists and mappings must not lie too deep in
one another.
-/

namespace NodeForge.Json

/-- What is left of a text after a part of it has been read. -/
abbrev Rest := List Char

/-- The text from its first character on that is no blank. -/
def skipBlanks (text : Rest) : Rest :=
  text.dropWhile fun c => c == ' ' || c == '\t' || c == '\n' || c == '\r'

/-- The value of a hexadecimal digit in either case. -/
def hexValue? (c : Char) : Option Nat :=
  if c.isDigit then some (c.toNat - 48)
  else if 'a' ≤ c ∧ c ≤ 'f' then some (c.toNat - 87)
  else if 'A' ≤ c ∧ c ≤ 'F' then some (c.toNat - 55)
  else none

/-- The value of a row of hexadecimal digits. -/
def hexValues? (digits : List Char) : Option Nat :=
  digits.foldlM (fun n c => (16 * n + ·) <$> hexValue? c) 0

/-- The character that a short escape stands for. -/
def shortEscape? : Char → Option Char
  | '"' => some '"'
  | '\\' => some '\\'
  | '/' => some '/'
  | 'b' => some '\x08'
  | 'f' => some '\x0c'
  | 'n' => some '\n'
  | 'r' => some '\r'
  | 't' => some '\t'
  | _ => none

/-- A result of reading. -/
abbrev Read := Except Fault

/-- The text is no JSON. -/
def malformed {α : Type} : Read α := .error .malformedJson

/-- What has been found, or else the text is no JSON. -/
def found {α : Type} (r : Option α) : Read α := orFault .malformedJson r

/-- The codes of a text in quotes, code units and characters alike, from behind the opening quote
on. -/
def readCodes : Rest → Read (List Nat × Rest)
  | '"' :: rest => .ok ([], rest)
  | '\\' :: 'u' :: a :: b :: c :: d :: rest => do
    let n ← found (hexValues? [a, b, c, d])
    let (codes, rest) ← readCodes rest
    return (n :: codes, rest)
  | '\\' :: e :: rest => do
    let c ← found (shortEscape? e)
    let (codes, rest) ← readCodes rest
    return (c.toNat :: codes, rest)
  | c :: rest =>
    if c.toNat < 0x20 then malformed
    else do
      let (codes, rest) ← readCodes rest
      return (c.toNat :: codes, rest)
  | [] => malformed

/-- A text in quotes, from behind the opening quote on. -/
def readText (text : Rest) : Read (Text × Rest) := do
  let (codes, rest) ← readCodes text
  return (Text.ofUnits codes, rest)

/-- The digits at the start of a text. -/
def readDigits (text : Rest) : List Char × Rest :=
  (text.takeWhile Char.isDigit, text.dropWhile Char.isDigit)

/-- The value of a row of decimal digits. -/
def digitsValue (digits : List Char) : Nat :=
  digits.foldl (fun n c => 10 * n + (c.toNat - 48)) 0

/-- The fraction at the start of a text: a point and at least one digit. -/
def readFraction (text : Rest) : Option (List Char × Rest) :=
  match text with
  | '.' :: rest =>
    let (digits, rest) := readDigits rest
    if digits.isEmpty then none else some (digits, rest)
  | _ => none

/-- The exponent at the start of a text: its mark, an optional sign and at least one digit. -/
def readExponent (text : Rest) : Option (Int × Rest) :=
  match text with
  | c :: rest =>
    if c == 'e' || c == 'E' then
      let (negative, rest) :=
        match rest with
        | '-' :: rest => (true, rest)
        | '+' :: rest => (false, rest)
        | rest => (false, rest)
      let (digits, rest) := readDigits rest
      let n : Int := digitsValue digits
      if digits.isEmpty then none else some (if negative then -n else n, rest)
    else none
  | [] => none

/-- An integer with its sign; one that is written with too many digits is not read. -/
def integer (negative : Bool) (digits : List Char) : Read Value :=
  let n : Int := digitsValue digits
  if Digits.longest < digits.length then .error .badContent
  else .ok (.int (if negative then -n else n))

/-- A number from its first digit on. -/
def readNumber (negative : Bool) (text : Rest) : Read (Value × Rest) :=
  let (digits, rest) := readDigits text
  let (whole, rest) :=
    match digits with
    | '0' :: more => (['0'], more ++ rest)
    | digits => (digits, rest)
  let fraction := readFraction rest
  let (places, rest) := fraction.getD ([], rest)
  let exponent := readExponent rest
  let (e, rest) := exponent.getD (0, rest)
  if fraction.isNone && exponent.isNone then do
    return (← integer negative whole, rest)
  else
    .ok (.float (Binary64.ofDecimal negative (digitsValue (whole ++ places))
      (e - (places.length : Int))), rest)

/-- The words that stand for values. -/
def words : List (String × Value) :=
  [("null", .null), ("true", .bool true), ("false", .bool false),
    ("NaN", .scalar (.noNumber 0)), ("Infinity", .float Digits.infinity),
    ("-Infinity", .float (-Digits.infinity))]

/-- A word that stands for a value, at the start of a text. -/
def readWord (text : Rest) : Read (Value × Rest) :=
  found <| (words.find? fun w => w.1.toList.isPrefixOf text).map fun w =>
    (w.2, text.drop w.1.length)

/-- The number of lists and mappings that may lie in one another. -/
def deepest : Nat := 990

/-- The levels that are left inside a list or a mapping. -/
def inner : (levels : Nat) → Read Nat
  | 0 => .error .endless
  | levels + 1 => .ok levels

mutual

/-- A value at the start of a text without blanks before it, in which as many lists and mappings
may lie in one another as there are levels left. The first number bounds the length of what is
read. -/
def readValue : Nat → (levels : Nat) → Rest → Read (Value × Rest)
  | 0, _, _ => malformed
  | fuel + 1, levels, text =>
    match text with
    | '"' :: rest => do
      let (s, rest) ← readText rest
      return (.str s, rest)
    | '[' :: rest => do
      let levels ← inner levels
      match skipBlanks rest with
      | ']' :: rest => return (.list [], rest)
      | rest =>
        let (items, rest) ← readItems fuel levels rest
        return (.list items, rest)
    | '\x7b' :: rest => do
      let levels ← inner levels
      match skipBlanks rest with
      | '\x7d' :: rest => return (.map [], rest)
      | rest =>
        let (entries, rest) ← readEntries fuel levels rest
        return (.map (Entries.ofList entries), rest)
    | '-' :: c :: rest =>
      if c.isDigit then readNumber true (c :: rest) else readWord text
    | c :: _ => if c.isDigit then readNumber false text else readWord text
    | [] => malformed

/-- The members of a list up to its closing bracket. -/
def readItems : Nat → (levels : Nat) → Rest → Read (List Value × Rest)
  | 0, _, _ => malformed
  | fuel + 1, levels, text => do
    let (item, rest) ← readValue fuel levels text
    match skipBlanks rest with
    | ',' :: rest =>
      let (items, rest) ← readItems fuel levels (skipBlanks rest)
      return (item :: items, rest)
    | ']' :: rest => return ([item], rest)
    | _ => malformed

/-- The entries of a mapping up to its closing brace. -/
def readEntries : Nat → (levels : Nat) → Rest → Read (Fields × Rest)
  | 0, _, _ => malformed
  | fuel + 1, levels, text =>
    match text with
    | '"' :: rest => do
      let (key, rest) ← readText rest
      match skipBlanks rest with
      | ':' :: rest =>
        let (value, rest) ← readValue fuel levels (skipBlanks rest)
        match skipBlanks rest with
        | ',' :: rest =>
          let (entries, rest) ← readEntries fuel levels (skipBlanks rest)
          return ((.str key, value) :: entries, rest)
        | '\x7d' :: rest => return ([(.str key, value)], rest)
        | _ => malformed
      | _ => malformed
    | _ => malformed

end

/-- Reads a JSON text. -/
def read (text : String) : Except Fault Value := do
  let chars := text.toList
  let (value, rest) ← readValue (chars.length + 1) deepest (skipBlanks chars)
  if (skipBlanks rest).isEmpty then return value else malformed

end NodeForge.Json
