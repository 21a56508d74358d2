import NodeForge.Document.Access

/-!
# The words of a shell line

A line is split at blanks. Between single quotes all characters stand for themselves; between double
quotes a backslash still escapes a double quote or a backslash; elsewhere it escapes any character.
Quotes may stand inside a word, and nothing between quotes is a word of its own. There are no
comments.
-/

namespace NodeForge.ShellWords

/-- How the next sign of a line is to be taken. -/
inductive Mode where
  | bare
  | bareEscape
  | single
  | double
  | doubleEscape
deriving Repr, DecidableEq

/-- A sign between words. -/
def isBlank (c : Sign) : Bool := c == ' ' || c == '\t' || c == '\r' || c == '\n'

/-- The words of the rest of a line; `word` holds the signs of the word at hand, the last one
first. There is no result where a quote or an escape is left open. -/
def wordsFrom : Mode → (word : Option Text) → Text → Option (List Text)
  | .bare, none, [] => some []
  | .bare, some w, [] => some [w.reverse]
  | _, _, [] => none
  | .bare, word, c :: rest =>
    if isBlank c then
      match word with
      | none => wordsFrom .bare none rest
      | some w => (wordsFrom .bare none rest).map (w.reverse :: ·)
    else if c == '\\' then wordsFrom .bareEscape (some (word.getD [])) rest
    else if c == '\x27' then wordsFrom .single (some (word.getD [])) rest
    else if c == '"' then wordsFrom .double (some (word.getD [])) rest
    else wordsFrom .bare (some (c :: word.getD [])) rest
  | .bareEscape, word, c :: rest => wordsFrom .bare (some (c :: word.getD [])) rest
  | .single, word, c :: rest =>
    if c == '\x27' then wordsFrom .bare word rest
    else wordsFrom .single (some (c :: word.getD [])) rest
  | .double, word, c :: rest =>
    if c == '"' then wordsFrom .bare word rest
    else if c == '\\' then wordsFrom .doubleEscape word rest
    else wordsFrom .double (some (c :: word.getD [])) rest
  | .doubleEscape, word, c :: rest =>
    let escaped := if c == '"' || c == '\\' then [c] else [c, .char '\\']
    wordsFrom .double (some (escaped ++ word.getD [])) rest

/-- The words of a line. -/
def ofLine (line : Text) : Except Fault (List Text) :=
  orFault .badContent (wordsFrom .bare none line)

end NodeForge.ShellWords
