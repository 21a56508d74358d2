import NodeForge.Yaml.Cursor

/-!
# Scalars, tags and directives in a YAML text

What the longer tokens of a YAML text look like: plain, quoted and block scalars with the folding
of their lines, and the names in tags, anchors and directives. Each function takes a cursor at the
start of such a piece and gives its content with the cursor behind it.
-/

namespace NodeForge.Yaml.Lexeme

/-! ### Line breaks inside scalars -/

/-- What a line end and the empty lines after it become: a single line feed is folded into a space,
the lines after it stay. -/
def foldedBreaks (first : Char) (others : List Char) : List Char :=
  if first ≠ '\n' then first :: others
  else if others.isEmpty then [' ']
  else others

/-- The line ends that follow, with blanks before and between them. A mark between documents must
not come up. The number bounds the lines. -/
def innerBreaks : Nat → Cursor → Read (List Char × Cursor)
  | 0, c => .ok ([], c)
  | fuel + 1, c => do
    if c.atDocumentMark then throw .malformed
    let c := c.skipWhile fun ch => ch == ' ' || ch == '\t'
    match c.lineEnd? with
    | none => return ([], c)
    | some (e, c) => do
      let (others, c) ← innerBreaks fuel c
      return (e :: others, c)

/-! ### Quoted scalars -/

/-- The characters with short escapes. -/
def shortEscapes : List (Char × Char) :=
  [('0', '\x00'), ('a', '\x07'), ('b', '\x08'), ('t', '\t'), ('\t', '\t'), ('n', '\n'),
    ('v', '\x0b'), ('f', '\x0c'), ('r', '\r'), ('e', '\x1b'), (' ', ' '), ('"', '"'),
    ('\\', '\\'), ('/', '/'), ('N', '\x85'), ('_', '\xa0'), ('L', '\u2028'), ('P', '\u2029')]

/-- The number of digits of an escape by code. -/
def escapeLength? : Char → Option Nat
  | 'x' => some 2
  | 'u' => some 4
  | 'U' => some 8
  | _ => none

/-- The codes that an escape stands for, behind its backslash. -/
def escapeCodes (fuel : Nat) (c : Cursor) : Read (List Nat × Cursor) := do
  let some ch := c.peek | throw .malformed
  if let some e := shortEscapes.lookup ch then return ([e.toNat], c.next)
  if let some length := escapeLength? ch then
    let digits := c.next.rest.take length
    let some code := Json.hexValues? digits | throw .malformed
    if digits.length < length then throw .malformed
    if 0x7FFFFFFF < code then throw (.fault .outOfRange)
    if 0x10FFFF < code then throw (.fault .badContent)
    return ([code], c.next.skip length)
  match c.lineEnd? with
  | some (_, c) => do
    let (breaks, c) ← innerBreaks fuel c
    return (breaks.map Char.toNat, c)
  | none => throw .malformed

/-- The codes of a stretch of blanks inside quotes: as they are, or folded around a line end. -/
def quotedBlanks (fuel : Nat) (c : Cursor) : Read (List Nat × Cursor) := do
  let (blanks, c) := c.takeWhile fun ch => ch == ' ' || ch == '\t'
  if c.rest.isEmpty then throw .malformed
  match c.lineEnd? with
  | some (first, c) => do
    let (others, c) ← innerBreaks fuel c
    return ((foldedBreaks first others).map Char.toNat, c)
  | none => return (blanks.map Char.toNat, c)

/-- The codes of a quoted scalar from behind its opening quote on. The number bounds its
characters. -/
def quotedCodes (double : Bool) : Nat → Cursor → Read (List Nat × Cursor)
  | 0, _ => .error .malformed
  | fuel + 1, c =>
    match c.peek with
    | none => .error .malformed
    | some ch => do
      if !double && ch == '\x27' && c.peekAt 1 == some '\x27' then
        let (codes, c) ← quotedCodes double fuel (c.skip 2)
        return (39 :: codes, c)
      else if ch == (if double then '"' else '\x27') then return ([], c.next)
      else
        let (first, c) ←
          if double && ch == '\\' then escapeCodes fuel c.next
          else if ch == ' ' || ch == '\t' || isBreak ch then quotedBlanks fuel c
          else pure ([ch.toNat], c.next)
        let (codes, c) ← quotedCodes double fuel c
        return (first ++ codes, c)

/-- A quoted scalar from its opening quote on. Halves of a pair stay apart. -/
def quoted (double : Bool) (c : Cursor) : Read (Text × Cursor) := do
  let (codes, c) ← quotedCodes double (c.left + 1) c.next
  return (codes.map Sign.ofCode, c)

/-! ### Plain scalars -/

/-- Characters that separate values inside brackets. -/
def isFlowMark (c : Char) : Bool := c == ',' || c == '[' || c == ']' || c == '\x7b' || c == '\x7d'

/-- The part of a plain scalar up to the next blank or the next mark. -/
def plainChunk (inFlow : Bool) : List Char → List Char
  | [] => []
  | ch :: rest =>
    let endsHere := isBlankOrBreak ch ||
      (ch == ':' && (blankAhead rest || (inFlow && rest.head?.any isFlowMark))) ||
      (inFlow && (isFlowMark ch || ch == '?'))
    if endsHere then [] else ch :: plainChunk inFlow rest

/-- Line ends with spaces between them; `none` at a mark between documents. The number bounds the
lines. -/
def plainBreaks : Nat → Cursor → Option (List Char × Cursor)
  | 0, c => some ([], c)
  | fuel + 1, c =>
    if c.atDocumentMark && c.column == 0 then none
    else
      let c := c.skipSpaces
      match c.lineEnd? with
      | none => some ([], c)
      | some (e, c) => (plainBreaks fuel c).map fun (others, c) => (e :: others, c)

/-- What stands between two parts of a plain scalar. -/
structure PlainGap where
  /-- What it becomes; `none` if the scalar ends here. -/
  text : Option (List Char)
  /-- Whether a line end was passed. -/
  broken : Bool
  cursor : Cursor

/-- The blanks behind a part of a plain scalar. -/
def plainGap (fuel : Nat) (c : Cursor) : PlainGap :=
  let (spaces, c) := c.takeWhile (· == ' ')
  match c.lineEnd? with
  | none => ⟨if spaces.isEmpty then none else some spaces, false, c⟩
  | some (first, c) =>
    match plainBreaks fuel c with
    | none => ⟨none, true, c⟩
    | some (others, c) => ⟨some (foldedBreaks first others), true, c⟩

/-- The parts of a plain scalar that lies at least at `indent`; the flag tells whether a line end
comes last. The number bounds the parts. -/
def plainFrom (inFlow : Bool) (indent : Int) : Nat → Cursor → List Char × Bool × Cursor
  | 0, c => ([], false, c)
  | fuel + 1, c =>
    let chunk := if c.peek = some '#' then [] else plainChunk inFlow c.rest
    if chunk.isEmpty then ([], false, c)
    else
      let gap := plainGap fuel (c.skip chunk.length)
      let c := gap.cursor
      match gap.text with
      | none => (chunk, gap.broken, c)
      | some blanks =>
        let ends := c.peek = some '#' || (!inFlow && decide ((c.column : Int) < indent))
        if ends then (chunk, gap.broken, c)
        else
          let (text, broken, c) := plainFrom inFlow indent fuel c
          if text.isEmpty then (chunk, gap.broken, c) else (chunk ++ blanks ++ text, broken, c)

/-- A plain scalar. The flag tells whether it was ended by a line end. -/
def plain (inFlow : Bool) (indent : Int) (c : Cursor) : Text × Bool × Cursor :=
  let (text, broken, c) := plainFrom inFlow indent (c.left + 1) c
  (Text.ofChars text, broken, c)

/-! ### Block scalars -/

/-- What becomes of the line ends at the end of a block scalar. -/
inductive Chomp where
  | clip
  | strip
  | keep
deriving DecidableEq

/-- The sign that says so. -/
def chompOf? : Char → Option Chomp
  | '+' => some .keep
  | '-' => some .strip
  | _ => none

/-- An explicit indentation: one digit that is not zero. -/
def increment? (c : Cursor) : Read (Option Nat × Cursor) :=
  match c.peek with
  | some ch =>
    if ch == '0' then .error .malformed
    else if ch.isDigit then .ok (some (ch.toNat - 48), c.next)
    else .ok (none, c)
  | none => .ok (none, c)

/-- The sign for the end of a block scalar, if there is one. -/
def chomp? (c : Cursor) : Option Chomp × Cursor :=
  match c.peek.bind chompOf? with
  | some chomp => (some chomp, c.next)
  | none => (none, c)

/-- The head of a block scalar behind its mark: a sign and an indentation in either order. -/
def blockHead (c : Cursor) : Read (Chomp × Option Nat × Cursor) := do
  let (before, c) := chomp? c
  let (increment, c) ← increment? c
  let (after, c) := if before.isNone && increment.isSome then chomp? c else (none, c)
  if !(c.peek = some ' ' || c.atLineEnd) then throw .malformed
  return ((before.orElse fun _ => after).getD .clip, increment, ← c.skipRestOfLine)

/-- The empty lines before a block scalar, and the widest indentation among them. The number bounds
the characters. -/
def leadingLines : Nat → Nat → Cursor → List Char × Nat × Cursor
  | 0, widest, c => ([], widest, c)
  | fuel + 1, widest, c =>
    if c.peek = some ' ' then leadingLines fuel (max widest c.next.column) c.next
    else
      match c.lineEnd? with
      | some (e, c) =>
        let (others, widest, c) := leadingLines fuel widest c
        (e :: others, widest, c)
      | none => ([], widest, c)

/-- Passes over spaces up to an indentation. -/
def skipIndent (indent : Nat) (c : Cursor) : Cursor :=
  c.skip (min (indent - c.column) (c.rest.takeWhile (· == ' ')).length)

/-- The empty lines inside a block scalar. The number bounds the lines. -/
def blockBreaks (indent : Nat) : Nat → Cursor → List Char × Cursor
  | 0, c => ([], c)
  | fuel + 1, c =>
    let c := skipIndent indent c
    match c.lineEnd? with
    | some (e, c) =>
      let (others, c) := blockBreaks indent fuel c
      (e :: others, c)
    | none => ([], c)

/-- A space or a tab. -/
def atSpace (c : Cursor) : Bool := c.at? fun ch => ch == ' ' || ch == '\t'

/-- The lines of a block scalar; `breaks` are the line ends before the next one. The result is the
text, the last line end and the empty lines after it. The number bounds the lines. -/
def blockLines (folded : Bool) (indent : Nat) :
    Nat → List Char → Cursor → List Char × List Char × List Char × Cursor
  | 0, breaks, c => ([], [], breaks, c)
  | fuel + 1, breaks, c =>
    if c.column != indent || c.rest.isEmpty then ([], [], breaks, c)
    else
      let foldable := !atSpace c
      let (line, c) := c.takeWhile fun ch => !isBreak ch
      let (lineEnd, c) :=
        match c.lineEnd? with
        | some (e, c) => ([e], c)
        | none => ([], c)
      let (after, c) := blockBreaks indent fuel c
      if c.column != indent || c.rest.isEmpty then (breaks ++ line, lineEnd, after, c)
      else
        let joint :=
          if folded && lineEnd == ['\n'] && foldable && !atSpace c then
            if after.isEmpty then [' '] else []
          else lineEnd
        let (text, last, tail, c) := blockLines folded indent fuel after c
        (breaks ++ line ++ joint ++ text, last, tail, c)

/-- A block scalar from its mark on, inside a block at `parent`. -/
def block (folded : Bool) (parent : Int) (c : Cursor) : Read (Text × Cursor) := do
  let (chomp, increment, c) ← blockHead c.next
  let fuel := c.left + 1
  let least := max 1 (parent + 1).toNat
  let (breaks, indent, c) :=
    match increment with
    | some n =>
      let (breaks, c) := blockBreaks (least + n - 1) fuel c
      (breaks, least + n - 1, c)
    | none =>
      let (breaks, widest, c) := leadingLines fuel 0 c
      (breaks, max least widest, c)
  let (text, last, tail, c) := blockLines folded indent fuel breaks c
  let ending :=
    match chomp with
    | .strip => []
    | .clip => last
    | .keep => last ++ tail
  return (Text.ofChars (text ++ ending), c)

/-! ### Names -/

/-- A character of a name. -/
def isNameChar (c : Char) : Bool := Letter.isAsciiAlnum c || c == '-' || c == '_'

/-- The name of an anchor, behind its mark. -/
def anchorName (c : Cursor) : Read (String × Cursor) := do
  let (name, c) := c.next.takeWhile isNameChar
  let endsHere := c.atBlank || c.at? fun ch => "?:,]\x7d%@`".toList.contains ch
  if name.isEmpty || !endsHere then throw .malformed
  return (String.ofList name, c)

/-- A character of a tag. -/
def isTagChar (c : Char) : Bool :=
  Letter.isAsciiAlnum c || "-;/?:@&=+$,_.!~*'()[]%".toList.contains c

/-- The bytes of a tag, in which a percent sign and two digits stand for one byte. -/
def tagBytes : List Char → Option (List UInt8)
  | [] => some []
  | '%' :: a :: b :: rest => do
    let n ← Json.hexValues? [a, b]
    return UInt8.ofNat n :: (← tagBytes rest)
  | c :: rest => do
    if c == '%' then none
    return UInt8.ofNat c.toNat :: (← tagBytes rest)

/-- The text of a tag, which must not be empty. -/
def tagText (c : Cursor) : Read (String × Cursor) := do
  let (chars, c) := c.takeWhile isTagChar
  if chars.isEmpty then throw .malformed
  let some bytes := tagBytes chars | throw .malformed
  match String.fromUTF8? (ByteArray.mk bytes.toArray) with
  | some text => return (text, c)
  | none => throw .malformed

/-- The handle of a tag: an exclamation mark, or a name between two. -/
def tagHandle (c : Cursor) : Read (String × Cursor) := do
  if c.peek ≠ some '!' then throw .malformed
  if c.peekAt 1 = some ' ' then return ("!", c.next)
  let (name, c) := c.next.takeWhile isNameChar
  if c.peek ≠ some '!' then throw .malformed
  return (String.ofList ('!' :: name ++ ['!']), c.next)

/-- Whether a second exclamation mark comes before the end of the word behind a cursor. -/
def hasHandle (c : Cursor) : Bool :=
  (c.next.rest.takeWhile fun ch => !(ch == ' ' || isBreak ch)).contains '!'

/-- A tag: its handle, if it has one, and the rest of it. -/
def tag (c : Cursor) : Read (Option String × String × Cursor) := do
  let (handle, suffix, c) ←
    if c.peekAt 1 = some '<' then do
      let (text, c) ← tagText (c.skip 2)
      if c.peek ≠ some '>' then throw .malformed
      pure (none, text, c.next)
    else if c.blankAt 1 then pure (none, "!", c.next)
    else do
      let (handle, c) ← if hasHandle c then tagHandle c else pure ("!", c.next)
      let (text, c) ← tagText c
      pure (some handle, text, c)
  if !(c.peek = some ' ' || c.atLineEnd) then throw .malformed
  return (handle, suffix, c)

/-- A row of digits. -/
def number (c : Cursor) : Read (Nat × Cursor) := do
  let (digits, c) := c.takeWhile Char.isDigit
  if digits.isEmpty then throw .malformed
  return (Json.digitsValue digits, c)

end NodeForge.Yaml.Lexeme
