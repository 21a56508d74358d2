import NodeForge.Yaml.Plain

/-!
# Writing YAML in block style

Writes a tree of texts, lists and mappings with one entry a line. A text is written plain where it
reads back as the same text, between single quotes where that is not so, and between double quotes
where it holds what only escapes can show. Long texts are folded at spaces behind column 80, and
lists stand at the indentation of the key that they belong to.

Where a line may be broken hangs on what stands before, so writing is a walk of a `Pen`, which knows
its column and what it has just written.
-/

namespace NodeForge.Yaml

/-- A tree of texts. -/
inductive Tree where
  | text (s : Text)
  | list (items : List Tree)
  | map (entries : List (Text × Tree))

/-- The column behind which a line is broken. -/
def foldColumn : Nat := 80

/-! ### The pen -/

/-- What has been written, and where the pen stands. -/
structure Pen where
  /-- What has been written, the last character first. -/
  written : List Char
  column : Nat
  /-- Whether a blank or nothing stands before the pen. -/
  afterBlank : Bool
  /-- Whether the line holds only indentation and indicators so far. -/
  atIndent : Bool

namespace Pen

/-- A pen at the start of a text. -/
def start : Pen := ⟨[], 0, true, true⟩

/-- Writes characters on the line. -/
def write (text : List Char) (p : Pen) : Pen :=
  { p with written := text.reverse ++ p.written, column := p.column + text.length }

/-- Ends the line with a given line end. -/
def breakWith (lineEnd : Char) (p : Pen) : Pen :=
  ⟨lineEnd :: p.written, 0, true, true⟩

/-- Goes to an indentation, on the same line as long as nothing else stands there. -/
def toIndent (indent : Nat) (p : Pen) : Pen :=
  let p :=
    if !p.atIndent || decide (indent < p.column) || (p.column == indent && !p.afterBlank) then
      p.breakWith '\n'
    else p
  if p.column < indent then
    { p.write (List.replicate (indent - p.column) ' ') with afterBlank := true }
  else p

/-- Writes an indicator that needs a blank before it; after a structural one the line still counts
as indentation. -/
def indicator (text : List Char) (structural : Bool) (p : Pen) : Pen :=
  { p.write (if p.afterBlank then text else ' ' :: text) with
    afterBlank := false, atIndent := p.atIndent && structural }

/-- Writes an indicator right behind what stands there. -/
def attached (text : List Char) (p : Pen) : Pen :=
  { p.write text with afterBlank := false, atIndent := false }

end Pen

/-! ### Which way a text is written -/

/-- The characters that end a line. -/
def isBreak (c : Char) : Bool := c == '\n' || c == '\x85' || c == '\u2028' || c == '\u2029'

/-- Blanks, line ends and the end of the text. -/
def isBlankOrBreak (c : Char) : Bool :=
  c == ' ' || c == '\t' || c == '\r' || c == '\x00' || isBreak c

/-- Whether what follows is a blank, a line end or nothing. -/
def blankAhead : List Char → Bool
  | [] => true
  | c :: _ => isBlankOrBreak c

/-- Characters that can only be written as escapes. -/
def needsEscape (c : Char) : Bool :=
  let n := c.toNat
  !(c == '\n' || (0x20 ≤ n && n ≤ 0x7E) || n == 0x85 ||
    (0xA0 ≤ n && n ≤ 0xFFFD && n != 0xFEFF) || (0x10000 ≤ n && n < 0x10FFFF))

/-- Whether the first character of a text, followed by `rest`, would be taken for structure. -/
def isIndicatorAtStart (c : Char) (rest : List Char) : Bool :=
  "#,[]\x7b\x7d&*!|>'\"%@`".toList.contains c ||
    ((c == '?' || c == ':' || c == '-') && blankAhead rest)

/-- Whether a later character would be taken for structure: a colon before a blank, or a number
sign behind one. -/
def hasInnerIndicator : (afterBlank : Bool) → List Char → Bool
  | _, [] => false
  | afterBlank, c :: rest =>
    (c == ':' && blankAhead rest) || (c == '#' && afterBlank) ||
      hasInnerIndicator (isBlankOrBreak c) rest

/-- Whether a text would be taken for structure if it were written plain. -/
def hasIndicator : List Char → Bool
  | [] => false
  | c :: rest =>
    let text := c :: rest
    ['-', '-', '-'].isPrefixOf text || ['.', '.', '.'].isPrefixOf text ||
      isIndicatorAtStart c rest || hasInnerIndicator (isBlankOrBreak c) rest

/-- Whether some neighbours in a text are of two given kinds. -/
def hasNeighbours (first second : Char → Bool) : List Char → Bool
  | c :: d :: rest => (first c && second d) || hasNeighbours first second (d :: rest)
  | _ => false

/-- Whether a text begins or ends with a space or a line end. -/
def hasOuterBlank (text : List Char) : Bool :=
  let isOuter (c : Option Char) : Bool := c.any fun c => c == ' ' || isBreak c
  isOuter text.head? || isOuter text.getLast?

/-- The ways to write a text. -/
inductive Style where
  | plain
  | single
  | double
deriving Repr, DecidableEq

/-- Whether a text needs double quotes. -/
def needsDouble (text : List Char) : Bool :=
  text.any needsEscape || hasNeighbours (· == ' ') isBreak text ||
    hasNeighbours isBreak (· == ' ') text

/-- The way to write a row of characters; `inKey` says that it is a key on a line of its own. -/
def styleOf (inKey : Bool) (text : List Char) : Style :=
  let isBroken := text.any isBreak
  let allowsPlain := !hasOuterBlank text && !needsDouble text && !isBroken && !hasIndicator text
  if Plain.kindOf text = .text && allowsPlain && !(inKey && isBroken) then .plain
  else if !needsDouble text && !(inKey && isBroken) then .single
  else .double

/-! ### Writing a text -/

/-- A stretch of a text: spaces, line ends, or neither. -/
inductive Stretch where
  | spaces (count : Nat)
  | breaks (ends : List Char)
  | letters (text : List Char)

/-- Puts a character in front of the stretches of a text. -/
def addToStretches (c : Char) (stretches : List Stretch) : List Stretch :=
  if c == ' ' then
    match stretches with
    | .spaces n :: rest => .spaces (n + 1) :: rest
    | rest => .spaces 1 :: rest
  else if isBreak c then
    match stretches with
    | .breaks ends :: rest => .breaks (c :: ends) :: rest
    | rest => .breaks [c] :: rest
  else
    match stretches with
    | .letters text :: rest => .letters (c :: text) :: rest
    | rest => .letters [c] :: rest

/-- The stretches of a text. -/
def stretchesOf (text : List Char) : List Stretch := text.foldr addToStretches []

/-- Writes line ends: a plain one doubled, so that it is not read as a space. -/
def writeBreaks (indent : Nat) (ends : List Char) (p : Pen) : Pen :=
  let p := if ends.head? = some '\n' then p.breakWith '\n' else p
  (ends.foldl (fun p c => p.breakWith c) p).toIndent indent

/-- Writes the stretches of a plain or single-quoted text. A single space behind the last column
becomes a line end where `mayFold` allows it and it is neither the first nor the last stretch. -/
def writeStretches (letter : Char → List Char) (indent : Nat) (mayFold : Bool) :
    (isFirst : Bool) → List Stretch → Pen → Pen
  | _, [], p => p
  | _, .letters text :: rest, p =>
    writeStretches letter indent mayFold false rest (p.write (text.flatMap letter))
  | _, .breaks ends :: rest, p =>
    writeStretches letter indent mayFold false rest (writeBreaks indent ends p)
  | isFirst, .spaces n :: rest, p =>
    let folds := n == 1 && decide (foldColumn < p.column) && mayFold && !isFirst && !rest.isEmpty
    writeStretches letter indent mayFold false rest <|
      if folds then
        { p.toIndent indent with afterBlank := false, atIndent := false }
      else p.write (List.replicate n ' ')

/-- Writes a text plain. -/
def writePlain (indent : Nat) (mayFold : Bool) (text : List Char) (p : Pen) : Pen :=
  let p := if p.afterBlank then p else p.write [' ']
  let p := { p with afterBlank := false, atIndent := false }
  writeStretches (fun c => [c]) indent mayFold true (stretchesOf text) p

/-- Writes a text between single quotes, which are doubled inside it. -/
def writeSingle (indent : Nat) (mayFold : Bool) (text : List Char) (p : Pen) : Pen :=
  let letter (c : Char) : List Char := if c = '\x27' then [c, c] else [c]
  (writeStretches letter indent mayFold true (stretchesOf text)
    (p.indicator ['\x27'] false)).attached ['\x27']

/-- The characters with short escapes. -/
def shortEscapes : List (Char × Char) :=
  [('\x00', '0'), ('\x07', 'a'), ('\x08', 'b'), ('\t', 't'), ('\n', 'n'), ('\x0b', 'v'),
    ('\x0c', 'f'), ('\r', 'r'), ('\x1b', 'e'), ('"', '"'), ('\\', '\\'), ('\x85', 'N'),
    ('\xa0', '_'), ('\u2028', 'L'), ('\u2029', 'P')]

/-- A hexadecimal digit with a capital letter. -/
def capitalHex (width n : Nat) : List Char := (Quoted.hexDigits width n).map Char.toUpper

/-- The escape of a code. -/
def codeEscape (n : Nat) : List Char :=
  if n ≤ 0xFF then '\\' :: 'x' :: capitalHex 2 n
  else if n ≤ 0xFFFF then '\\' :: 'u' :: capitalHex 4 n
  else '\\' :: 'U' :: capitalHex 8 n

/-- Whether a character is written as itself between double quotes. -/
def isShown (c : Char) : Bool :=
  let n := c.toNat
  (0x20 ≤ n && n ≤ 0x7E && c != '"' && c != '\\') ||
    (0xA0 ≤ n && n ≤ 0xFFFD && n != 0x2028 && n != 0x2029 && n != 0xFEFF)

/-- What stands for a sign between double quotes: itself, or an escape. -/
def shownOrEscape : Sign → Char ⊕ List Char
  | .char c =>
    if isShown c then .inl c
    else
      match shortEscapes.lookup c with
      | some e => .inr ['\\', e]
      | none => .inr (codeEscape c.toNat)
  | .half k => .inr (codeEscape (Sign.half k).code)

/-- Breaks a double-quoted text, with a mark where the next line begins with a space. -/
def foldDouble (indent : Nat) (spaceNext : Bool) (p : Pen) : Pen :=
  let p := { (p.write ['\\']).toIndent indent with afterBlank := false, atIndent := false }
  if spaceNext then p.write ['\\'] else p

/-- Writes the signs of a double-quoted text from `place` on; `held` are characters that
have not been written yet, the last one first. -/
def writeDoubleFrom (indent length : Nat) (mayFold : Bool) :
    (place : Nat) → (held : List Char) → Text → Pen → Pen
  | _, held, [], p => p.write held.reverse
  | i, held, s :: rest, p =>
    let inside := decide (0 < i) && decide (i + 1 < length) && mayFold
    match shownOrEscape s with
    | .inr e =>
      let p := (p.write held.reverse).write e
      let folds := inside && decide (foldColumn + 1 < p.column)
      writeDoubleFrom indent length mayFold (i + 1) [] rest <|
        if folds then foldDouble indent (rest.head? == some (Sign.char ' ')) p else p
    | .inl c =>
      let mayBreak := c == ' ' || held.isEmpty
      if inside && mayBreak && decide (foldColumn < p.column + held.length) then
        writeDoubleFrom indent length mayFold (i + 1) [c] rest
          (foldDouble indent (c == ' ') (p.write held.reverse))
      else writeDoubleFrom indent length mayFold (i + 1) (c :: held) rest p

/-- Writes a text between double quotes. -/
def writeDouble (indent : Nat) (mayFold : Bool) (text : Text) (p : Pen) : Pen :=
  (writeDoubleFrom indent text.length mayFold 0 [] text (p.indicator ['"'] false)).attached ['"']

/-- Writes a text in the way that suits it. Half a pair can only be shown by an escape. -/
def writeText (indent : Nat) (inKey : Bool) (text : Text) (p : Pen) : Pen :=
  match text.chars? with
  | none => writeDouble indent (!inKey) text p
  | some chars =>
    match styleOf inKey chars with
    | .plain => writePlain indent (!inKey) chars p
    | .single => writeSingle indent (!inKey) chars p
    | .double => writeDouble indent (!inKey) text p

/-! ### Writing a tree -/

/-- The longest key that is written on the line of its value. -/
def longestKey : Nat := 122

/-- Whether a key is written on the line of its value. -/
def isShortKey (key : Text) : Bool :=
  !key.isEmpty && key.length ≤ longestKey && !key.any (Sign.meets isBreak)

/-- Writes a key and the colon after it. A key that is empty, long or broken over lines gets a
line of its own behind a question mark. -/
def writeKey (indent : Nat) (key : Text) (p : Pen) : Pen :=
  let p := p.toIndent indent
  if isShortKey key then (writeText (indent + 2) true key p).attached [':']
  else
    let p := writeText (indent + 2) false key (p.indicator ['?'] true)
    (p.toIndent indent).indicator [':'] true

mutual

/-- Writes a tree; `indent` is where its own lines begin. -/
def writeTree (indent : Nat) : Tree → Pen → Pen
  | .text s, p => writeText (indent + 2) false s p
  | .list [], p => p.indicator ['[', ']'] false
  | .map [], p => p.indicator ['\x7b', '\x7d'] false
  | .list (x :: xs), p => writeItems indent (x :: xs) p
  | .map (e :: es), p => writeEntries indent (e :: es) p

/-- Writes the members of a list. -/
def writeItems (indent : Nat) : List Tree → Pen → Pen
  | [], p => p
  | x :: xs, p =>
    writeItems indent xs (writeMember indent x ((p.toIndent indent).indicator ['-'] true))

/-- Writes one member of a list at `indent`. -/
def writeMember (indent : Nat) : Tree → Pen → Pen
  | .text s, p => writeText (indent + 2) false s p
  | .list [], p => p.indicator ['[', ']'] false
  | .map [], p => p.indicator ['\x7b', '\x7d'] false
  | .list (x :: xs), p => writeItems (indent + 2) (x :: xs) p
  | .map (e :: es), p => writeEntries (indent + 2) (e :: es) p

/-- Writes the entries of a mapping at `indent`. A list stays at that place behind a short key, all
else moves in. -/
def writeEntries (indent : Nat) : List (Text × Tree) → Pen → Pen
  | [], p => p
  | (k, v) :: es, p =>
    let p := writeKey indent k p
    let p :=
      match v with
      | .list (x :: xs) => writeItems (if isShortKey k then indent else indent + 2) (x :: xs) p
      | .map (f :: fs) => writeEntries (indent + 2) (f :: fs) p
      | .list [] => p.indicator ['[', ']'] false
      | .map [] => p.indicator ['\x7b', '\x7d'] false
      | .text s => writeText (indent + 2) false s p
    writeEntries indent es p

end

/-- The text of a tree. -/
def write (t : Tree) : String :=
  String.ofList ((writeTree 0 t Pen.start).breakWith '\n').written.reverse

end NodeForge.Yaml
