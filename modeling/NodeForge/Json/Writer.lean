import NodeForge.Document.Access

/-!
# Writing JSON

Writes a document value with one entry a line and two spaces a level; empty lists and mappings
stay on their line. Only quotes, backslashes and control characters are escaped, or, where the
text has to be ASCII, all that is not. Keys that are no texts are written as the text of their
value, and a pair is written as a list. Dates, bytes and sets have no JSON form, and neither has a
container that holds itself or a whole number that is too long.
-/

namespace NodeForge.Json

/-- Which characters are written as themselves. -/
inductive Charset where
  | unicode
  | ascii
deriving Repr, DecidableEq

/-- The escape of a code unit. -/
def unitEscape (n : Nat) : List Char := '\\' :: 'u' :: Quoted.hexDigits 4 n

/-- One character between quotes. -/
def escapeChar (charset : Charset) (c : Char) : List Char :=
  if c = '"' then ['\\', '"']
  else if c = '\\' then ['\\', '\\']
  else if c = '\n' then ['\\', 'n']
  else if c = '\r' then ['\\', 'r']
  else if c = '\t' then ['\\', 't']
  else if c = '\x08' then ['\\', 'b']
  else if c = '\x0c' then ['\\', 'f']
  else if c.toNat < 0x20 then unitEscape c.toNat
  else if charset = .unicode ∨ c.toNat < 0x7F then [c]
  else if c.toNat < 0x10000 then unitEscape c.toNat
  else
    let (high, low) := Text.unitsOf c.toNat
    unitEscape high ++ unitEscape low

/-- One sign between quotes. -/
def escapeSign (charset : Charset) : Sign → Text
  | .char c => Text.ofChars (escapeChar charset c)
  | .half k =>
    match charset with
    | .unicode => [.half k]
    | .ascii => Text.ofChars (unitEscape (Sign.half k).code)

/-- A text between quotes. -/
def quote (charset : Charset) (text : Text) : Text :=
  .char '"' :: text.flatMap (escapeSign charset) ++ [.char '"']

/-- The names of the numbers without digits. -/
def specialNames : Numeral.SpecialNames := ⟨"NaN", "Infinity"⟩

/-- The form of a scalar, as far as it has one; a text is left to the caller. -/
def scalarText : Scalar → Except Fault Text
  | .null => .ok "null"
  | .bool b => .ok (if b then "true" else "false")
  | .int i => if (Scalar.int i).isShowable then .ok (Numeral.ofInt i) else .error .badContent
  | .float x => .ok (Numeral.ofFloat specialNames x)
  | .noNumber _ => .ok specialNames.nan
  | .str s => .ok s
  | .bytes _ | .date _ | .moment _ => .error .wrongKind

/-- The line end and the blanks before an entry. -/
def newLine (level : Nat) : Text := "\n" ++ Text.repeated ' ' (2 * level)

/-- Entries between brackets, each of them on lines of its own; `level` is that of the brackets. -/
def enclosed (start ending : Text) (level : Nat) (entries : List (List Text)) : List Text :=
  start :: newLine (level + 1) ::
    List.intercalate [Text.ofString ",", newLine (level + 1)] entries ++ [newLine level, ending]

mutual

/-- Writes a value whose own line is at the given level, as pieces of text. -/
def piecesAt (charset : Charset) (level : Nat) : Value → Except Fault (List Text)
  | .scalar (.str s) => .ok [quote charset s]
  | .scalar s => do return [← scalarText s]
  | .list [] => .ok ["[]"]
  | .list (x :: xs) => do
    let items ← itemPieces charset (level + 1) (x :: xs)
    return enclosed "[" "]" level items
  | .pair x y => do
    let first ← piecesAt charset (level + 1) x
    let second ← piecesAt charset (level + 1) y
    return enclosed "[" "]" level [first, second]
  | .map [] => .ok ["\x7b\x7d"]
  | .map (e :: es) => do
    let entries ← fieldPieces charset (level + 1) (e :: es)
    return enclosed "\x7b" "\x7d" level entries
  | .set _ => .error .wrongKind
  | .again _ _ => .error .badContent

/-- Writes the members of a list, each as pieces of text. -/
def itemPieces (charset : Charset) (level : Nat) : List Value → Except Fault (List (List Text))
  | [] => .ok []
  | x :: xs => do
    let item ← piecesAt charset level x
    let items ← itemPieces charset level xs
    return item :: items

/-- Writes the entries of a mapping, each as pieces of text. -/
def fieldPieces (charset : Charset) (level : Nat) :
    List (Scalar × Value) → Except Fault (List (List Text))
  | [] => .ok []
  | (k, v) :: es => do
    let key ← scalarText k
    let value ← piecesAt charset level v
    let entries ← fieldPieces charset level es
    return (quote charset key :: ": " :: value) :: entries

end

/-- Writes a value. -/
def write (value : Value) : Except Fault Text := List.flatten <$> piecesAt .unicode 0 value

/-- Writes a value in ASCII. -/
def writeAscii (value : Value) : Except Fault Text := List.flatten <$> piecesAt .ascii 0 value

end NodeForge.Json
