import NodeForge.Document.Slots
import NodeForge.Document.Value

/-!
# Taking parts of a document and making it anew

A part of a document may hold a container around it. `apart` prepares a document for the parts that
are not gone into, the pairs: each of them can then be taken for itself. `copied` makes all of a
document anew, which shows in the order of its sets.
-/

namespace NodeForge.Value

/-! ### Parts -/

mutual

/-- A part of a document as it is written, with its pairs in the form in which they can be taken for
themselves; `whole` is the part in this form. -/
def apartAs (whole : Value) : Value → Value
  | .list xs =>
    match whole.opened with
    | .list wholes => .list (itemsApart wholes xs)
    | _ => .list xs
  | .map es =>
    match whole.opened with
    | .map wholes => .map (fieldsApart (wholes.map Prod.snd) es)
    | _ => .map es
  | .pair _ _ => whole
  | v => v

/-- The members of a list, each beside its form as a whole. -/
def itemsApart : (wholes : List Value) → List Value → List Value
  | w :: ws, x :: xs => apartAs w x :: itemsApart ws xs
  | _, xs => xs

/-- The values of a mapping, each beside its form as a whole. -/
def fieldsApart : (wholes : List Value) → List (Scalar × Value) → List (Scalar × Value)
  | w :: ws, (k, v) :: es => (k, apartAs w v) :: fieldsApart ws es
  | _, es => es

end

/-- A document in which no pair outside of other pairs holds a container around it. -/
def apart (document : Value) : Value := apartAs document document

/-! ### Copies -/

mutual

/-- The same value made anew: the members of its sets are put in one by one. -/
def copied : Value → Value
  | .scalar s => .scalar s
  | .list xs => .list (copiedItems xs)
  | .pair a b => .pair (copied a) (copied b)
  | .map es => .map (copiedFields es)
  | .set ms => .set (Slots.inOrder ms)
  | .again shape n => .again shape n

/-- The members of a list made anew. -/
def copiedItems : List Value → List Value
  | [] => []
  | x :: xs => copied x :: copiedItems xs

/-- The values of a mapping made anew. -/
def copiedFields : List (Scalar × Value) → List (Scalar × Value)
  | [] => []
  | (k, v) :: es => (k, copied v) :: copiedFields es

end

end NodeForge.Value
