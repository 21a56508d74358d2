import NodeForge.Document.Access
import NodeForge.Yaml.Writer

/-!
# A place in a YAML text

Layout counts in YAML, so reading goes along with a cursor that knows its line and column. Line
ends are a line feed, the next-line character, or a line or paragraph separator; a byte-order mark
takes no column.
-/

namespace NodeForge.Yaml

/-- Why a YAML text cannot be read: it is not well-formed, or one of its scalars has a content that
its type does not allow. -/
inductive Trouble where
  | malformed
  | fault (f : Fault)
deriving Repr, DecidableEq

/-- A result of reading. -/
abbrev Read := Except Trouble

/-- A place in a text. -/
structure Cursor where
  rest : List Char
  /-- The number of characters in the rest. -/
  left : Nat
  line : Nat
  column : Nat

namespace Cursor

/-- The start of a text. -/
def start (text : List Char) : Cursor := ⟨text, text.length, 0, 0⟩

/-- The character at the cursor. -/
def peek (c : Cursor) : Option Char := c.rest.head?

/-- The character some places behind the cursor. -/
def peekAt (n : Nat) (c : Cursor) : Option Char := c.rest[n]?

/-- Whether the character at the cursor is of a class. -/
def at? (isMember : Char → Bool) (c : Cursor) : Bool := c.peek.any isMember

/-- Goes on by one character. -/
def next (c : Cursor) : Cursor :=
  match c.rest with
  | [] => c
  | ch :: rest =>
    if isBreak ch then ⟨rest, c.left - 1, c.line + 1, 0⟩
    else ⟨rest, c.left - 1, c.line, if ch = '\ufeff' then c.column else c.column + 1⟩

/-- Goes on by some characters. -/
def skip : Nat → Cursor → Cursor
  | 0, c => c
  | n + 1, c => skip n c.next

/-- Takes the characters of a class that follow. -/
def takeWhile (isMember : Char → Bool) (c : Cursor) : List Char × Cursor :=
  let taken := c.rest.takeWhile isMember
  (taken, c.skip taken.length)

/-- Passes over the characters of a class that follow. -/
def skipWhile (isMember : Char → Bool) (c : Cursor) : Cursor := (c.takeWhile isMember).2

/-- Passes over a line end, if there is one, and gives what it counts as: the separators stand for
themselves, any other line end for a line feed. -/
def lineEnd? (c : Cursor) : Option (Char × Cursor) :=
  match c.peek with
  | some ch =>
    if isBreak ch then some (if ch = '\x85' then '\n' else ch, c.next) else none
  | none => none

/-- Whether a line end or the end of the text is at the cursor. -/
def atLineEnd (c : Cursor) : Bool :=
  match c.peek with
  | some ch => isBreak ch
  | none => true

/-- Whether a blank, a line end or the end of the text is at the cursor. -/
def atBlank (c : Cursor) : Bool := blankAhead c.rest

/-- Whether a blank, a line end or the end of the text comes some places behind the cursor. -/
def blankAt (n : Nat) (c : Cursor) : Bool := blankAhead (c.rest.drop n)

/-- Whether a mark between documents is at the cursor: three hyphens or three points, and a blank
after them. -/
def atDocumentMark (c : Cursor) : Bool :=
  (['-', '-', '-'].isPrefixOf c.rest || ['.', '.', '.'].isPrefixOf c.rest) && c.blankAt 3

/-- Passes over spaces. -/
def skipSpaces (c : Cursor) : Cursor := c.skipWhile (· == ' ')

/-- Passes over spaces and a comment up to the end of the line; nothing else may stand there. -/
def skipRestOfLine (c : Cursor) : Read Cursor :=
  let c := c.skipSpaces
  let c := if c.peek = some '#' then c.skipWhile fun ch => !isBreak ch else c
  match c.lineEnd? with
  | some (_, c) => .ok c
  | none => if c.rest.isEmpty then .ok c else .error .malformed

end Cursor

end NodeForge.Yaml
