import NodeForge.Document.Scalar
import NodeForge.Document.Entries
import NodeForge.Document.Runs

/-!
# Document values

A document is a tree of scalars, lists, pairs, mappings and sets. Mappings keep the order in which
their keys were written; equality does not look at that order, and takes numbers by their value.

A container may hold itself. Where it comes up again inside itself there is a mark that says how
many containers further out it is, so every value is finite. The members of a container that holds
itself are to be taken from `Value.opened`, in which no mark leads out of a member.
-/

namespace NodeForge

/-- The kinds of containers that can hold themselves. -/
inductive Shape where
  | list
  | pair
  | map
deriving Repr, DecidableEq

/-- A value of a document. -/
inductive Value where
  | scalar (s : Scalar)
  | list (items : List Value)
  /-- An entry that stands in a list. -/
  | pair (first second : Value)
  | map (entries : List (Scalar × Value))
  | set (members : List Scalar)
  /-- A container around this place once more; `outward` is 0 for the one that holds the mark. -/
  | again (shape : Shape) (outward : Nat)
deriving Inhabited

/-- The entries of a mapping. -/
abbrev Fields := List (Scalar × Value)

/-- The entries of a mapping under texts as keys. -/
abbrev Record := List (Text × Value)

namespace Value

/-- The value that stands for nothing. -/
@[match_pattern] abbrev null : Value := .scalar .null

/-- A truth value. -/
@[match_pattern] abbrev bool (b : Bool) : Value := .scalar (.bool b)

/-- A whole number. -/
@[match_pattern] abbrev int (i : Int) : Value := .scalar (.int i)

/-- A floating-point number. -/
@[match_pattern] abbrev float (x : Float) : Value := .scalar (.float x)

/-- A text. -/
@[match_pattern] abbrev str (s : Text) : Value := .scalar (.str s)

/-- A mapping under texts as keys. -/
def record (entries : Record) : Value :=
  .map (entries.map fun e => (.str e.1, e.2))

/-- A list of texts. -/
def texts (items : List Text) : Value := .list (items.map Value.str)

/-! ### Sameness -/

mutual

/-- Whether two values hold the same, whatever the order of their keys. -/
def same : Value → Value → Bool
  | .scalar a, .scalar b => a.same b
  | .list xs, .list ys => sameItems xs ys
  | .pair a b, .pair c d => same a c && same b d
  | .map es, .map fs => es.length == fs.length && sameFields es fs
  | .set xs, .set ys => xs.length == ys.length && xs.all fun x => ys.any fun y => x.same y
  | .again s m, .again t n => s == t && m == n
  | _, _ => false

/-- Whether two rows of values are the same one by one. -/
def sameItems : List Value → List Value → Bool
  | [], [] => true
  | x :: xs, y :: ys => same x y && sameItems xs ys
  | _, _ => false

/-- Whether each entry of the first row has the same value in the second. -/
def sameFields : List (Scalar × Value) → List (Scalar × Value) → Bool
  | [], _ => true
  | (k, v) :: es, fs =>
    (match fs.lookup k with
      | some w => same v w
      | none => false) && sameFields es fs

end

instance : BEq Value := ⟨same⟩

/-! ### Views -/

/-- The entries, if the value is a mapping. -/
def fields? : Value → Option Fields
  | .map es => some es
  | _ => none

/-- The members, if the value is a list. -/
def items? : Value → Option (List Value)
  | .list xs => some xs
  | _ => none

/-- The text, if the value is one. -/
def text? : Value → Option Text
  | .str s => some s
  | _ => none

/-- Whether the value is the text `s`. -/
def isText (s : Text) (v : Value) : Bool := v.text? == some s

/-- Whether a value counts as given: null, false, zero, the empty text and empty collections do
not. A collection that holds itself is not empty. -/
def truthy : Value → Bool
  | .scalar s => s.truthy
  | .list xs => !xs.isEmpty
  | .pair _ _ | .again _ _ => true
  | .map es => !es.isEmpty
  | .set ms => !ms.isEmpty

/-- The value, or `other` in place of one that does not count as given. -/
def orElse (v other : Value) : Value := if v.truthy then v else other

/-! ### Containers that hold themselves -/

/-- What stands for a value at a place `outward` containers inside of it. -/
def mark (v : Value) (outward : Nat) : Value :=
  match v with
  | .list _ => .again .list outward
  | .pair _ _ => .again .pair outward
  | .map _ => .again .map outward
  | .again shape _ => .again shape outward
  | v => v

mutual

/-- Puts `around n` in place of every mark that leads out of a value, where `n` is the number of
containers between the value and the mark; `depth` is that number at the start. -/
def fill (around : Nat → Value) (depth : Nat) : Value → Value
  | .list xs => .list (fillItems around (depth + 1) xs)
  | .pair a b => .pair (fill around (depth + 1) a) (fill around (depth + 1) b)
  | .map es => .map (fillFields around (depth + 1) es)
  | .again shape n => if n = depth then around depth else .again shape n
  | v => v

/-- Fills the members of a list. -/
def fillItems (around : Nat → Value) (depth : Nat) : List Value → List Value
  | [] => []
  | x :: xs => fill around depth x :: fillItems around depth xs

/-- Fills the values of a mapping. -/
def fillFields (around : Nat → Value) (depth : Nat) :
    List (Scalar × Value) → List (Scalar × Value)
  | [] => []
  | (k, v) :: es => (k, fill around depth v) :: fillFields around depth es

end

/-- The members of a pair, each of which can be taken for itself. -/
def pairMembers (a b : Value) : Value × Value :=
  (fill (fun n => .pair (a.mark n) b) 0 a, fill (fun n => .pair a (b.mark n)) 0 b)

/-- The same value, each member of which can be taken for itself: where a member led out to the
container around it, it holds that container, in which the member is marked in turn. -/
def opened : Value → Value
  | .list xs => .list <| xs.zipIdx.map fun (x, i) =>
      fill (fun n => .list (xs.set i (x.mark n))) 0 x
  | .pair a b => .pair (pairMembers a b).1 (pairMembers a b).2
  | .map es => .map <| es.zipIdx.map fun (e, i) =>
      (e.1, fill (fun n => .map (es.set i (e.1, e.2.mark n))) 0 e.2)
  | v => v

/-! ### Spelling -/

mutual

/-- The value as it is shown inside another one. What comes up inside itself is only hinted at. -/
def quoted : Value → Text
  | .scalar s => s.quoted
  | .list xs => "[" ++ Text.joined ", " (quotedItems xs) ++ "]"
  | .pair a b => "(" ++ quoted a ++ ", " ++ quoted b ++ ")"
  | .map es => "\x7b" ++ Text.joined ", " (quotedFields es) ++ "\x7d"
  | .set [] => "set()"
  | .set (m :: ms) => "\x7b" ++ Text.joined ", " ((m :: ms).map Scalar.quoted) ++ "\x7d"
  | .again .list _ => "[...]"
  | .again .pair _ => "(...)"
  | .again .map _ => "\x7b...\x7d"

/-- The members of a list as they are shown. -/
def quotedItems : List Value → List Text
  | [] => []
  | x :: xs => quoted x :: quotedItems xs

/-- The entries of a mapping as they are shown. -/
def quotedFields : List (Scalar × Value) → List Text
  | [] => []
  | (k, v) :: es => (k.quoted ++ ": " ++ quoted v) :: quotedFields es

end

/-- The value put into running text: a text stands as it is, all else as it is shown. -/
def text : Value → Text
  | .scalar s => s.text
  | v => v.quoted

mutual

/-- Whether a value can be shown: all numbers in it can be written. -/
def isShowable : Value → Bool
  | .scalar s => s.isShowable
  | .list xs => itemsShowable xs
  | .pair a b => isShowable a && isShowable b
  | .map es => fieldsShowable es
  | .set ms => ms.all Scalar.isShowable
  | .again _ _ => true

/-- Whether all members of a list can be shown. -/
def itemsShowable : List Value → Bool
  | [] => true
  | x :: xs => isShowable x && itemsShowable xs

/-- Whether all entries of a mapping can be shown. -/
def fieldsShowable : List (Scalar × Value) → Bool
  | [] => true
  | (k, v) :: es => k.isShowable && isShowable v && fieldsShowable es

end

end Value

namespace Fields

/-- The value under a text key. -/
def get? (key : Text) (fields : Fields) : Option Value := fields.lookup (.str key)

/-- The value under a text key, null where there is none. -/
def get (key : Text) (fields : Fields) : Value := (get? key fields).getD .null

/-- Whether a text key is there. -/
def has (key : Text) (fields : Fields) : Bool := (get? key fields).isSome

/-- Gives a text key a value. -/
def put (key : Text) (value : Value) (fields : Fields) : Fields :=
  Entries.put (.str key) value fields

/-- The fields in the order of their keys, if they can be ordered. A number that is nowhere has no
place among the others; with it, the order is the one that merging runs makes. -/
def sorted (fields : Fields) : Fields :=
  if fields.any fun e => e.1.isNowhere then Runs.sort (fun a b => !b.1.atMost a.1) fields
  else fields.mergeSort fun a b => a.1.atMost b.1

end Fields

end NodeForge
