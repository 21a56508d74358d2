import NodeForge.Document.Scalar
import NodeForge.Json.Reader

/-!
# What a plain scalar stands for

A scalar without quotes may be a number, a truth value, null or a date by the way it is written.
`Plain.kindOf` decides which, so it also tells which texts have to be quoted when they are written:
those that would be read as something else. A line end behind all else does not count.
-/

namespace NodeForge.Yaml.Plain

/-- What a plain scalar is by the way it is written. -/
inductive Kind where
  | text
  | null
  | bool
  | int
  | float
  | timestamp
  /-- The word `<<`, the key under which other mappings are merged in. -/
  | merge
  /-- The word `=`, the key of a default value. -/
  | value
  /-- One of `!`, `&` and `*`, which stand for nothing alone. -/
  | mark
deriving Repr, DecidableEq

/-! ### Patterns

A pattern takes a text and gives what may be left of it after a match. All patterns here match in
one way at most, since what follows a repetition never begins like another round of it. -/

/-- A pattern: what is left of a text that it matches. -/
abbrev Pattern := List Char → Option (List Char)

/-- One pattern after another. -/
def sequence (patterns : List Pattern) : Pattern := fun text =>
  patterns.foldlM (fun rest p => p rest) text

/-- A pattern that need not match. -/
def optional (p : Pattern) : Pattern := fun text => some ((p text).getD text)

/-- One character of a class. -/
def one (isMember : Char → Bool) : Pattern
  | c :: cs => if isMember c then some cs else none
  | [] => none

/-- Any number of characters of a class. -/
def many (isMember : Char → Bool) : Pattern := fun text => some (text.dropWhile isMember)

/-- At least one character of a class. -/
def many1 (isMember : Char → Bool) : Pattern := sequence [one isMember, many isMember]

/-- A pattern once or more, as often as it matches; the number bounds the rounds. -/
def rounds (p : Pattern) : Nat → Pattern
  | 0, text => p text
  | fuel + 1, text =>
    match p text with
    | none => none
    | some rest =>
      if rest.length < text.length then some ((rounds p fuel rest).getD rest) else some rest

/-- Whether the pattern matches the whole text. -/
def matchesAll (p : Pattern) (text : List Char) : Bool := p text == some []

/-- A digit or an underscore. -/
def isDigitOrLine (c : Char) : Bool := c.isDigit || c == '_'

/-- A sign. -/
def isSign (c : Char) : Bool := c == '+' || c == '-'

/-- The literal text. -/
def literally (s : String) : Pattern := fun text =>
  if s.toList.isPrefixOf text then some (text.drop s.length) else none

/-- A part of a number to the base sixty: a colon and at most two digits below sixty. -/
def sixtieth : Pattern := fun text =>
  match text with
  | ':' :: a :: b :: rest =>
    if '0' ≤ a ∧ a ≤ '5' ∧ b.isDigit then some rest
    else if a.isDigit then some (b :: rest)
    else none
  | [':', a] => if a.isDigit then some [] else none
  | _ => none

/-- Parts to the base sixty, at least one. -/
def sixtieths : Pattern := fun text => rounds sixtieth text.length text

/-! ### Numbers -/

/-- A whole number: binary, octal, decimal, hexadecimal, or to the base sixty. -/
def isInt (text : List Char) : Bool :=
  let sign := optional (one isSign)
  let isLowDigit (c : Char) : Bool := c == '_' || ('0' ≤ c && c ≤ '7')
  let isHexDigit (c : Char) : Bool := c == '_' || (Json.hexValue? c).isSome
  let fromOne (c : Char) : Bool := c.isDigit && c != '0'
  [[sign, literally "0b", many1 fun c => c == '0' || c == '1' || c == '_'],
    [sign, literally "0", many1 isLowDigit],
    [sign, literally "0"],
    [sign, one fromOne, many isDigitOrLine],
    [sign, literally "0x", many1 isHexDigit],
    [sign, one fromOne, many isDigitOrLine, sixtieths]].any fun p => matchesAll (sequence p) text

/-- A floating-point number: with a point, to the base sixty with a point, or without digits. -/
def isFloat (text : List Char) : Bool :=
  let sign := optional (one isSign)
  let digits := [one Char.isDigit, many isDigitOrLine]
  let exponent := optional <|
    sequence [one fun c => c == 'e' || c == 'E', one isSign, many1 Char.isDigit]
  [[sign] ++ digits ++ [literally ".", many isDigitOrLine, exponent],
    [literally "."] ++ digits ++ [exponent],
    [sign] ++ digits ++ [sixtieths, literally ".", many isDigitOrLine],
    [sign, literally ".inf"], [sign, literally ".Inf"], [sign, literally ".INF"],
    [literally ".nan"], [literally ".NaN"], [literally ".NAN"]].any fun p =>
      matchesAll (sequence p) text

/-! ### Dates -/

/-- A space or a tab. -/
def isSpace (c : Char) : Bool := c == ' ' || c == '\t'

/-- One digit. -/
def digit : Pattern := one Char.isDigit

/-- One digit or two. -/
def digits12 : Pattern := sequence [digit, optional digit]

/-- The zone of a time: universal time, or the distance from it. -/
def zone : Pattern := fun text =>
  match sequence [many isSpace, literally "Z"] text with
  | some rest => some rest
  | none =>
    sequence [many isSpace, one isSign, digits12,
      optional (sequence [literally ":", digit, digit])] text

/-- What stands between a date and a time. -/
def dateEnd : Pattern := fun text =>
  match one (fun c => c == 'T' || c == 't') text with
  | some rest => some rest
  | none => many1 isSpace text

/-- The time of a day, with a fraction and a zone where they are given. -/
def timeOfDay : List Pattern :=
  [digits12, literally ":", digit, digit, literally ":", digit, digit,
    optional (sequence [literally ".", many Char.isDigit]), optional zone]

/-- A date, or a date with a time. A date alone has two digits for month and day. -/
def isTimestamp (text : List Char) : Bool :=
  let year := [digit, digit, digit, digit, literally "-"]
  matchesAll (sequence (year ++ [digit, digit, literally "-", digit, digit])) text ||
    matchesAll (sequence (year ++ [digits12, literally "-", digits12, dateEnd] ++ timeOfDay)) text

/-! ### Words -/

/-- The words that stand for truth values, each in its three letter cases. -/
def boolWords : List String :=
  ["yes", "Yes", "YES", "no", "No", "NO", "true", "True", "TRUE", "false", "False", "FALSE",
    "on", "On", "ON", "off", "Off", "OFF"]

/-- The words that stand for null. -/
def nullWords : List String := ["", "~", "null", "Null", "NULL"]

/-- A text without the line end behind all else. -/
def withoutLineEnd (text : List Char) : List Char :=
  if text.getLast? = some '\n' && text.length ≠ 1 then text.dropLast else text

/-- What a row of characters stands for as a plain scalar. -/
def kindOf (text : List Char) : Kind :=
  let chars := withoutLineEnd text
  let text := String.ofList chars
  if boolWords.contains text then .bool
  else if isFloat chars then .float
  else if isInt chars then .int
  else if text == "<<" then .merge
  else if nullWords.contains text then .null
  else if isTimestamp chars then .timestamp
  else if text == "=" then .value
  else if text == "!" || text == "&" || text == "*" then .mark
  else .text

/-- What a text stands for as a plain scalar; with half a pair in it, it is only a text. -/
def kindOfText (text : Text) : Kind := (text.chars?.map kindOf).getD .text

end NodeForge.Yaml.Plain
