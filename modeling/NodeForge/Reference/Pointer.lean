import NodeForge.Document.Copy
import NodeForge.Failure
import NodeForge.Number.Digits

/-!
# Pointers into a document

A reference `#/a/b/0` names a node by the way to it: the keys of mappings and the places in lists
from the root on. Inside a key a slash is written `~1` and a tilde `~0`. A way may go through a
container that holds itself as often as it likes.
-/

namespace NodeForge.Reference

/-- The key that a written token stands for. -/
def unescape (token : Text) : Text := Text.replace "~0" "~" (Text.replace "~1" "/" token)

/-- The written form of a key. -/
def escape (key : Text) : Text :=
  key.flatMap fun (c : Sign) => if c = '~' then ("~0" : Text) else if c = '/' then "~1" else [c]

/-- The keys on the way of a local reference, unescaped; empty steps are left out. -/
def steps (reference : Text) : List Text :=
  let path : Text := Rows.trimWhere (· == Sign.char '/')
    (reference.dropWhile (· == Sign.char '#'))
  ((Text.splitAt '/' path).filter fun token => !token.isEmpty).map unescape

/-- The place in a list that a key of digits stands for. Digits without a decimal value make no
number, and neither does an overlong row. -/
def placeOf (key : Text) : Except Fault Nat := do
  if Digits.longest < key.length then throw .badContent
  let digits ← key.mapM fun c => orFault .badContent (c.char?.bind Letter.decimalValue?)
  return digits.foldl (fun n d => 10 * n + d) 0

/-- Whether a key may be the place in a list. -/
def isNumeral (key : Text) : Bool := !key.isEmpty && key.all (Sign.meets Letter.isDigit)

/-- The node one step below another one; `none` if there is none. -/
def step (node : Value) (key : Text) : Except Fault (Option Value) :=
  match node with
  | .list items =>
    if isNumeral key then do return items[← placeOf key]? else .ok none
  | .map es => .ok (Fields.get? key es)
  | .again _ _ => .error .endless
  | _ => .ok none

/-- The node at the end of a way, where `enter` prepares a node for the parts of it that are gone
into. -/
def follow (enter : Value → Value) (reference : Text) (node : Value) :
    List Text → Except Failure Value
  | [] => .ok node
  | key :: rest => do
    match ← step (enter node) key with
    | some next => follow enter reference next rest
    | none => failSpec (.unresolvableReference reference)

/-- The node that a reference names in a document, where `enter` prepares a node for the parts of it
that are gone into. -/
def target (enter : Value → Value) (document : Value) (reference : Text) :
    Except Failure Value :=
  if Text.startsWith "#" reference then
    follow enter reference document (steps reference)
  else failSpec (.externalReference reference)

end NodeForge.Reference
