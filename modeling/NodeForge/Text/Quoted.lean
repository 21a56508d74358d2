import NodeForge.Text.Basic

/-!
# Quoted text

How a text is shown inside a message: between single quotes, or between double quotes when it
holds a single quote and no double one. The backslash, the quote in use and the characters that
cannot be shown are written as escapes, so a quoted text is always one line.
-/

namespace NodeForge.Quoted

/-- The small hexadecimal digit of a value below sixteen. -/
def hexDigit (n : Nat) : Char :=
  if n < 10 then Char.ofNat (48 + n) else Char.ofNat (87 + n)

/-- The last `width` hexadecimal digits of `n`. -/
def hexDigits : Nat → Nat → List Char
  | 0, _ => []
  | width + 1, n => hexDigits width (n / 16) ++ [hexDigit (n % 16)]

/-- The escape of a code, with as many digits as it needs. -/
def codeEscape (n : Nat) : List Char :=
  if n < 0x100 then '\\' :: 'x' :: hexDigits 2 n
  else if n < 0x10000 then '\\' :: 'u' :: hexDigits 4 n
  else '\\' :: 'U' :: hexDigits 8 n

/-- One character between the quotes `quote`. -/
def escape (quote c : Char) : List Char :=
  if c = quote ∨ c = '\\' then ['\\', c]
  else if c = '\n' then ['\\', 'n']
  else if c = '\r' then ['\\', 'r']
  else if c = '\t' then ['\\', 't']
  else if Letter.isPrintable c then [c]
  else codeEscape c.toNat

/-- One sign between the quotes `quote`. -/
def escapeSign (quote : Char) : Sign → List Char
  | .char c => escape quote c
  | .half k => codeEscape (Sign.half k).code

/-- The quote that needs the fewest escapes; the single one where it makes no difference. -/
def quoteFor (text : Text) : Char :=
  if text.any (· == '\x27') && !text.any (· == '"') then '"' else '\x27'

/-- The text between quotes. -/
def ofText (text : Text) : Text :=
  let quote := quoteFor text
  Text.ofChars (quote :: text.flatMap (escapeSign quote) ++ [quote])

/-- One byte between quotes: a printable ASCII character, or an escape. -/
def escapeByte (quote : Char) (b : UInt8) : List Char :=
  let c := Char.ofNat b.toNat
  if c.toNat < 0x80 then escape quote c else '\\' :: 'x' :: hexDigits 2 b.toNat

/-- A row of bytes between quotes, marked by a leading letter. -/
def ofBytes (bytes : List UInt8) : Text :=
  let quote := quoteFor (bytes.map fun b => Char.ofNat b.toNat)
  Text.ofChars ('b' :: quote :: bytes.flatMap (escapeByte quote) ++ [quote])

end NodeForge.Quoted
