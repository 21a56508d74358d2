import NodeForge.Text.CharClass
import NodeForge.Text.CaseMap

/-!
# Classes and case of single characters

The tests on single characters that the rest of the library is written with. On ASCII each of
them is a plain rule; beyond ASCII it asks a table of `CharClass` or `CaseMap`.
-/

namespace NodeForge.Letter

/-! ### Blank space -/

/-- White space: the blanks and line ends of ASCII, the four separators before the space, and the
spaces and line ends of the other scripts. The zero-width space and the byte-order mark are no
white space. -/
def isBlank (c : Char) : Bool :=
  let n := c.toNat
  (9 ≤ n && n ≤ 13) || (28 ≤ n && n ≤ 32) || n == 0x85 || n == 0xA0 || n == 0x1680 ||
    (0x2000 ≤ n && n ≤ 0x200A) || n == 0x2028 || n == 0x2029 || n == 0x202F || n == 0x205F ||
    n == 0x3000

/-! ### ASCII letters and digits -/

/-- A letter from `a` to `z`. -/
def isAsciiSmall (c : Char) : Bool := c.isLower

/-- A letter from `A` to `Z`. -/
def isAsciiCapital (c : Char) : Bool := c.isUpper

/-- An ASCII letter or digit: the characters that words of an identifier are made of. -/
def isAsciiAlnum (c : Char) : Bool := c.isAlpha || c.isDigit

/-! ### Classes of all characters -/

/-- Whether one of the runs of a table holds `c`. -/
def inTable (table : List CharRun) (c : Char) : Bool :=
  table.any fun r => r.holds c.toNat

/-- A small letter of any script. -/
def isSmall (c : Char) : Bool :=
  if c.toNat < 0x80 then c.isLower else inTable CharClass.small c

/-- A capital letter of any script. -/
def isCapital (c : Char) : Bool :=
  if c.toNat < 0x80 then c.isUpper else inTable CharClass.capital c

/-- A character of a word: a letter, a digit or another numeric character of any script, or the
underscore. -/
def isWordChar (c : Char) : Bool :=
  if c.toNat < 0x80 then isAsciiAlnum c || c == '_' else inTable CharClass.letterOrDigit c

/-- The decimal value of a digit of any script. -/
def decimalValue? (c : Char) : Option Nat :=
  if c.toNat < 0x80 then
    if c.isDigit then some (c.toNat - 48) else none
  else
    (CharClass.decimalDigit.find? fun r => r.holds c.toNat).map fun r => (c.toNat - r.first) % 10

/-- A digit of any script, with a decimal value or without. -/
def isDigit (c : Char) : Bool :=
  (decimalValue? c).isSome || inTable CharClass.otherDigit c

/-- A character that quoted text shows as it is. -/
def isPrintable (c : Char) : Bool :=
  if c.toNat < 0x80 then 0x20 ≤ c.toNat && c.toNat < 0x7F else inTable CharClass.printable c

/-- A character that makes a neighbouring sigma part of a word. -/
def isCased (c : Char) : Bool :=
  if c.toNat < 0x80 then c.isAlpha else inTable CharClass.cased c

/-- A character that is passed over when the end of a word is looked for. -/
def isCaseIgnorable (c : Char) : Bool :=
  if c.toNat < 0x80 then
    c == '\x27' || c == '.' || c == ':' || c == '^' || c == '\x60'
  else inTable CharClass.caseIgnorable c

/-! ### Case maps -/

/-- The image of `c` under a case map; a character without a line in the table stays. -/
def imageIn (table : List CaseRun) (c : Char) : List Char :=
  match table.find? fun r => r.run.holds c.toNat with
  | some r => r.image c.toNat
  | none => [c]

/-- A character in small letters, where it stands alone. -/
def toSmall (c : Char) : List Char :=
  if c.toNat < 0x80 then [c.toLower] else imageIn CaseMap.toSmall c

/-- A character in capital letters. -/
def toCapital (c : Char) : List Char :=
  if c.toNat < 0x80 then [c.toUpper] else imageIn CaseMap.toCapital c

end NodeForge.Letter
