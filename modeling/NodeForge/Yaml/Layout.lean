import NodeForge.Yaml.Lexeme
import NodeForge.Yaml.Token

/-!
# From text to tokens

`Scan.ofText` reads a YAML text into tokens. A `Layout` is how far that has come: the cursor, the
blocks that are open by their indentation, the depth of brackets, and the places where a key may
have begun. Such a place becomes a key when a colon follows on the same line, at most 1024
characters later; the tokens that announce it are then put in before what has been read since.

A text is read no further than its tokens are asked for. So where it cannot be read on, there are
still the tokens before that place, as far as no key may have begun among them.
-/

namespace NodeForge.Yaml

/-- A place where a key may have begun. -/
structure KeyPlace where
  /-- The depth of brackets there. -/
  depth : Nat
  /-- The number of tokens before it. -/
  tokensBefore : Nat
  /-- Whether nothing but a key can stand there. -/
  required : Bool
  /-- The number of characters from there on. -/
  left : Nat
  line : Nat
  column : Nat

/-- How far a text has been read. -/
structure Layout where
  cursor : Cursor
  /-- The tokens so far, the last one first. -/
  tokens : List Token
  /-- The number of tokens so far. -/
  count : Nat
  /-- The depth of brackets. -/
  depth : Nat
  /-- The column of the innermost block, -1 outside of all. -/
  indent : Int
  /-- The columns of the blocks around it. -/
  outer : List Int
  /-- Whether a key without a question mark may begin here. -/
  keyAllowed : Bool
  keyPlaces : List KeyPlace

namespace Layout

/-- The longest distance between the beginning of a key and its colon. -/
def longestKeySpan : Nat := 1024

/-- The layout at the start of a text. -/
def start (text : List Char) : Layout := ⟨Cursor.start text, [], 0, 0, -1, [], true, []⟩

/-- Whether brackets are open. -/
def inFlow (s : Layout) : Bool := s.depth != 0

/-- Adds a token. -/
def push (t : Token) (s : Layout) : Layout :=
  { s with tokens := t :: s.tokens, count := s.count + 1 }

/-- Adds a token behind the first `n`. -/
def insertAfter (n : Nat) (t : Token) (s : Layout) : Layout :=
  { s with tokens := s.tokens.insertIdx (s.count - n) t, count := s.count + 1 }

/-- Adds a token and goes on by some characters. -/
def pushOver (n : Nat) (t : Token) (s : Layout) : Layout :=
  { s.push t with cursor := s.cursor.skip n }

/-- Adds a token that ends at a cursor. -/
def pushTo (c : Cursor) (t : Token) (s : Layout) : Layout := { s.push t with cursor := c }

/-! ### Places of keys -/

/-- The place between the same brackets where a key may have begun. -/
def keyPlace? (s : Layout) : Option KeyPlace := s.keyPlaces.find? (·.depth == s.depth)

/-- Forgets that place. -/
def forgetKey (s : Layout) : Layout :=
  { s with keyPlaces := s.keyPlaces.filter (·.depth != s.depth) }

/-- Gives up that place, unless a key is needed there. -/
def dropKey (s : Layout) : Read Layout :=
  if s.keyPlace?.any (·.required) then .error .malformed else .ok s.forgetKey

/-- Takes note that a key may begin here. In the column of a block it has to be one. -/
def noteKey (s : Layout) : Read Layout := do
  if !s.keyAllowed then return s
  let s ← s.dropKey
  let c := s.cursor
  let required := !s.inFlow && s.indent == (c.column : Int)
  let place : KeyPlace := ⟨s.depth, s.count, required, c.left, c.line, c.column⟩
  return { s with keyPlaces := place :: s.keyPlaces }

/-- Whether a place is on another line, or too far back for a key. -/
def isPast (c : Cursor) (p : KeyPlace) : Bool :=
  p.line != c.line || decide (longestKeySpan < p.left - c.left)

/-- Gives up the places that have been left behind. -/
def dropPastKeys (s : Layout) : Read Layout :=
  if s.keyPlaces.any fun p => isPast s.cursor p && p.required then .error .malformed
  else .ok { s with keyPlaces := s.keyPlaces.filter fun p => !isPast s.cursor p }

/-! ### Blocks -/

/-- Ends the blocks to the right of a column. -/
def endBlocksFrom (column : Int) : List Int → Layout → Layout
  | [], s => s
  | around :: outer, s =>
    if column < s.indent then
      endBlocksFrom column outer { s.push .blockEnd with indent := around, outer := outer }
    else s

/-- Ends the blocks to the right of a column; inside brackets columns do not count. -/
def endBlocks (column : Int) (s : Layout) : Layout :=
  if s.inFlow then s else endBlocksFrom column s.outer s

/-- Begins a block at a column behind the first `n` tokens, unless there is one. -/
def openBlock (column n : Nat) (t : Token) (s : Layout) : Layout :=
  if s.indent < (column : Int) then
    { s.insertAfter n t with indent := column, outer := s.indent :: s.outer }
  else s

/-- Begins a block at the cursor, where a new entry may stand. -/
def openBlockHere (t : Token) (s : Layout) : Read Layout :=
  if s.inFlow then .ok s
  else if s.keyAllowed then .ok (s.openBlock s.cursor.column s.count t)
  else .error .malformed

/-! ### Tokens of one character -/

/-- Ends everything that is open, before a directive, a mark between documents or the end. -/
def endAll (s : Layout) : Read Layout := do
  let s ← (s.endBlocks (-1)).dropKey
  return { s with keyAllowed := false }

/-- Reads an opening bracket. -/
def openBracket (t : Token) (s : Layout) : Read Layout := do
  let s ← s.noteKey
  return { s.pushOver 1 t with depth := s.depth + 1, keyAllowed := true }

/-- Reads a closing bracket. -/
def closeBracket (t : Token) (s : Layout) : Read Layout := do
  let s ← s.dropKey
  if !s.inFlow then throw .malformed
  return { s.pushOver 1 t with depth := s.depth - 1, keyAllowed := false }

/-- Reads a comma between brackets. -/
def comma (s : Layout) : Read Layout := do
  return { (← s.dropKey).pushOver 1 .flowEntry with keyAllowed := true }

/-- Reads the hyphen before a member of a list. -/
def hyphen (s : Layout) : Read Layout := do
  let s ← (← s.openBlockHere .blockSequence).dropKey
  return { s.pushOver 1 .blockEntry with keyAllowed := true }

/-- Reads the question mark before a key. -/
def questionMark (s : Layout) : Read Layout := do
  let s ← (← s.openBlockHere .blockMapping).dropKey
  return { s.pushOver 1 .key with keyAllowed := !s.inFlow }

/-- Reads the colon before a value. If a key may have begun before it, that place is one now. -/
def colon (s : Layout) : Read Layout := do
  match s.keyPlace? with
  | some p =>
    let s := s.forgetKey.insertAfter p.tokensBefore .key
    let s := if s.inFlow then s else s.openBlock p.column p.tokensBefore .blockMapping
    return { s.pushOver 1 .value with keyAllowed := false }
  | none =>
    let s ← s.openBlockHere .blockMapping
    return { s.pushOver 1 .value with keyAllowed := !s.inFlow }

/-! ### Longer tokens -/

/-- Reads a mark between documents. -/
def documentMark (t : Token) (s : Layout) : Read Layout := do return (← s.endAll).pushOver 3 t

/-- What a directive says, behind its percent sign. -/
def directiveToken (c : Cursor) : Read (Token × Cursor) := do
  let (name, c) := c.takeWhile Lexeme.isNameChar
  let endsHere (c : Cursor) : Bool := c.peek = some ' ' || c.atLineEnd
  if name.isEmpty || !endsHere c then throw .malformed
  if name == "YAML".toList then
    let (major, c) ← Lexeme.number c.skipSpaces
    if c.peek ≠ some '.' then throw .malformed
    let (minor, c) ← Lexeme.number c.next
    if !endsHere c then throw .malformed
    return (.version major minor, c)
  else if name == "TAG".toList then
    let (handle, c) ← Lexeme.tagHandle c.skipSpaces
    if c.peek ≠ some ' ' then throw .malformed
    let (text, c) ← Lexeme.tagText c.skipSpaces
    if !endsHere c then throw .malformed
    return (.handle handle text, c)
  else return (.otherDirective, c.skipWhile fun ch => !isBreak ch)

/-- Reads a directive. -/
def directive (s : Layout) : Read Layout := do
  let s ← s.endAll
  let (t, c) ← directiveToken s.cursor.next
  return s.pushTo (← c.skipRestOfLine) t

/-- Reads a block scalar. -/
def blockScalar (folded : Bool) (s : Layout) : Read Layout := do
  let s ← s.dropKey
  let (text, c) ← Lexeme.block folded s.indent s.cursor
  return { s.pushTo c (.scalar text false) with keyAllowed := true }

/-- Reads a token that may be a key or begin one. -/
def keyToken (read : Cursor → Read (Token × Cursor)) (s : Layout) : Read Layout := do
  let s ← s.noteKey
  let (t, c) ← read s.cursor
  return { s.pushTo c t with keyAllowed := false }

/-- Reads a quoted scalar. -/
def quotedScalar (double : Bool) : Layout → Read Layout :=
  keyToken fun c => do
    let (text, c) ← Lexeme.quoted double c
    return (.scalar text false, c)

/-- Reads an anchor or an alias. -/
def anchorToken (make : String → Token) : Layout → Read Layout :=
  keyToken fun c => do
    let (name, c) ← Lexeme.anchorName c
    return (make name, c)

/-- Reads a tag. -/
def tagToken : Layout → Read Layout :=
  keyToken fun c => do
    let (handle, suffix, c) ← Lexeme.tag c
    return (.tag handle suffix, c)

/-- Reads a plain scalar; a key may begin behind it if it was ended by a line end. -/
def plainScalar (s : Layout) : Read Layout := do
  let s ← s.noteKey
  let (text, broken, c) := Lexeme.plain s.inFlow (s.indent + 1) s.cursor
  return { s.pushTo c (.scalar text true) with keyAllowed := broken }

/-! ### Reading on -/

/-- Whether a plain scalar may begin at the cursor, with the character `ch`. -/
def plainBegins (ch : Char) (s : Layout) : Bool :=
  !(isBlankOrBreak ch || "-?:,[]\x7b\x7d#&*!|>'\"%@`".toList.contains ch) ||
    (!s.cursor.blankAt 1 && (ch == '-' || (!s.inFlow && (ch == '?' || ch == ':'))))

/-- Passes over blanks, comments and line ends. Behind a line end a key may begin, unless brackets
are open. The number bounds the lines. -/
def skipBlanks : Nat → Layout → Layout
  | 0, s => s
  | fuel + 1, s =>
    let c := s.cursor.skipSpaces
    let c := if c.peek = some '#' then c.skipWhile fun ch => !isBreak ch else c
    match c.lineEnd? with
    | some (_, c) => skipBlanks fuel { s with cursor := c, keyAllowed := s.keyAllowed || !s.inFlow }
    | none => { s with cursor := c }

/-- Reads the token that begins with the character `ch` at the cursor. -/
def readToken (ch : Char) (s : Layout) : Read Layout :=
  let c := s.cursor
  let standsAlone := c.blankAt 1
  if ch == '%' && c.column == 0 then s.directive
  else if c.column == 0 && c.atDocumentMark then
    s.documentMark (if ch == '-' then .documentStart else .documentEnd)
  else if ch == '[' then s.openBracket .flowSequence
  else if ch == '\x7b' then s.openBracket .flowMapping
  else if ch == ']' then s.closeBracket .flowSequenceEnd
  else if ch == '\x7d' then s.closeBracket .flowMappingEnd
  else if ch == ',' then s.comma
  else if ch == '-' && standsAlone then s.hyphen
  else if ch == '?' && (s.inFlow || standsAlone) then s.questionMark
  else if ch == ':' && (s.inFlow || standsAlone) then s.colon
  else if ch == '*' then s.anchorToken .alias
  else if ch == '&' then s.anchorToken .anchor
  else if ch == '!' then s.tagToken
  else if ch == '|' && !s.inFlow then s.blockScalar false
  else if ch == '>' && !s.inFlow then s.blockScalar true
  else if ch == '\x27' then s.quotedScalar false
  else if ch == '"' then s.quotedScalar true
  else if s.plainBegins ch then s.plainScalar
  else .error .malformed

/-- Reads the next tokens, and says whether the text is at its end. -/
def readOn (s : Layout) : Read (Layout × Bool) := do
  let s ← (s.skipBlanks (s.cursor.left + 1)).dropPastKeys
  let s := s.endBlocks s.cursor.column
  match s.cursor.peek with
  | some ch => return (← s.readToken ch, false)
  | none => return ((← s.endAll).push .streamEnd, true)

/-- The number of tokens that are certain: before one that may be a key, others may still come. -/
def certainTokens (s : Layout) : Nat :=
  let places := s.keyPlaces.filter fun p => !isPast s.cursor p
  places.foldl (fun n p => min n p.tokensBefore) s.count

end Layout

/-- The tokens of a text as far as it can be read, and why it cannot be read on. -/
structure Scan where
  tokens : List Token
  stop : Trouble

namespace Scan

/-- Reads the tokens that are left. The number bounds them. -/
def readFrom : Nat → Layout → Scan
  | 0, s => ⟨s.tokens.reverse.take s.certainTokens, .malformed⟩
  | fuel + 1, s =>
    match s.readOn with
    | .ok (s, atEnd) => if atEnd then ⟨s.tokens.reverse, .malformed⟩ else readFrom fuel s
    | .error stop => ⟨s.tokens.reverse.take s.certainTokens, stop⟩

/-- The tokens of a text. -/
def ofText (text : List Char) : Scan := readFrom (text.length + 1) (Layout.start text)

end Scan

end NodeForge.Yaml
