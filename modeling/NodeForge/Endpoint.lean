import NodeForge.Document.Entries
import NodeForge.Text.Basic

/-!
# Endpoints

An endpoint is the path of an operation, in which names between braces are placeholders:
`/widgets/\x7bid\x7d`. A placeholder goes from an opening brace to the next closing one and its
name is not empty; braces that do not enclose a name are plain characters.
-/

namespace NodeForge.Endpoint

/-- A piece of an endpoint. -/
inductive Part where
  | plain (c : Sign)
  | placeholder (name : Text)
deriving Repr, DecidableEq

/-- The name of the placeholder that an opening brace in front of the text `rest` begins. -/
def placeholderBefore? (rest : Text) : Option Text :=
  let name := rest.takeWhile (· != Sign.char '\x7d')
  if !name.isEmpty && name.length < rest.length then some name else none

/-- The pieces of a text, after the next `skip` signs have been passed over. -/
def partsFrom : Nat → Text → List Part
  | _, [] => []
  | skip + 1, _ :: cs => partsFrom skip cs
  | 0, c :: cs =>
    if c = '\x7b' then
      match placeholderBefore? cs with
      | some name => .placeholder name :: partsFrom (name.length + 1) cs
      | none => .plain c :: partsFrom 0 cs
    else .plain c :: partsFrom 0 cs

/-- The pieces of an endpoint. -/
def parts (endpoint : Text) : List Part := partsFrom 0 endpoint

/-- The name of a piece that is a placeholder. -/
def Part.name? : Part → Option Text
  | .plain _ => none
  | .placeholder name => some name

/-- The text of a piece. -/
def Part.text : Part → Text
  | .plain c => [c]
  | .placeholder name => .char '\x7b' :: name ++ [.char '\x7d']

/-- The names of the placeholders, each once, from left to right. -/
def placeholders (endpoint : Text) : List Text :=
  Entries.distinct ((parts endpoint).filterMap Part.name?)

end NodeForge.Endpoint
