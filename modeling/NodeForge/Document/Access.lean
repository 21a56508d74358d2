import NodeForge.Document.Value

/-!
# Reading values of unknown shape

A document may hold anything anywhere. The functions here ask a value for something that only some
kinds of values have, and say what is wrong when it is not there: `Fault` names the ways in which
a value can fail to be what is asked of it.
-/

namespace NodeForge

/-- Why a value could not be used as asked. -/
inductive Fault where
  /-- Values of its kind have no such member: no fields, no entries, no letters. -/
  | noSuchMember
  /-- Values of its kind do not take part in this: they cannot be gone through, looked into,
  compared, or be a key. -/
  | wrongKind
  /-- The kind is right and the content is not. -/
  | badContent
  /-- There is nothing in a text that has to hold something. -/
  | emptyContent
  /-- A mapping lacks a key that has to be there. -/
  | absentKey
  /-- A number is too large for its kind. -/
  | outOfRange
  /-- Going into a value does not end: a container holds itself, or is nested too deeply. -/
  | endless
  /-- A text that should be JSON is none. -/
  | malformedJson
deriving Repr, DecidableEq

/-- Turns a missing result into a fault. -/
def orFault {α : Type} (fault : Fault) : Option α → Except Fault α
  | some a => .ok a
  | none => .error fault

/-- The text of a scalar from which a text is expected; `fault` says what goes wrong otherwise.
Bytes have the members of texts, but do not take part with texts. -/
def Scalar.asText (fault : Fault) : Scalar → Except Fault Text
  | .str s => .ok s
  | .bytes _ => .error .wrongKind
  | _ => .error fault

namespace Value

/-- The entries of a mapping. -/
def fields (v : Value) : Except Fault Fields := orFault .noSuchMember v.fields?

/-- The value under `key` of a mapping, where there is one. -/
def field? (key : Text) (v : Value) : Except Fault (Option Value) :=
  (Fields.get? key) <$> v.fields

/-- The value under `key` of a mapping, null where there is none. -/
def field (key : Text) (v : Value) : Except Fault Value := (Fields.get key) <$> v.fields

/-- The value under a key that a mapping has to have. -/
def demand (key : Text) : Value → Except Fault Value
  | .map es => orFault .absentKey (Fields.get? key es)
  | _ => .error .wrongKind

/-- Whether a text is a key of a mapping, a member of a list, pair or set, or a part of a text. -/
def holds (key : Text) : Value → Except Fault Bool
  | .map es => .ok (Fields.has key es)
  | .list xs => .ok (xs.any (isText key))
  | .pair a b => .ok (isText key a || isText key b)
  | .set ms => .ok (ms.any fun m => m == .str key)
  | .str s => .ok (Text.contains key s)
  | .scalar _ => .error .wrongKind
  | .again _ _ => .error .endless

/-- What comes up when a value is gone through: the members of a list, pair or set, the keys of a
mapping, the signs of a text, the bytes of a row of bytes. -/
def members : Value → Except Fault (List Value)
  | .list xs => .ok xs
  | .pair a b => .ok [(pairMembers a b).1, (pairMembers a b).2]
  | .map es => .ok (es.map fun e => .scalar e.1)
  | .set ms => .ok (ms.map .scalar)
  | .str s => .ok (s.map fun c => .str [c])
  | .scalar (.bytes bs) => .ok (bs.map fun b => .int b.toNat)
  | .scalar _ => .error .wrongKind
  | .again _ _ => .error .endless

/-- The first member of a list, pair or text; of a mapping, what it holds under zero. -/
def first : Value → Except Fault Value
  | .list (x :: _) => .ok x
  | .list [] => .error .badContent
  | .pair a b => .ok (pairMembers a b).1
  | .map es => orFault .absentKey (es.lookup (.int 0))
  | .str (c :: _) => .ok (.str [c])
  | .str [] => .error .badContent
  | .scalar (.bytes (b :: _)) => .ok (.int b.toNat)
  | .scalar _ | .set _ => .error .wrongKind
  | .again _ _ => .error .endless

/-- The value as a key of a mapping. -/
def asKey : Value → Except Fault Scalar
  | .scalar s => .ok s
  | _ => .error .wrongKind

/-- The value as a member of a set of keys. A pair of keys can be a member too, without being a
key itself. -/
def asMember : Value → Except Fault (Option Scalar)
  | .pair (.scalar _) (.scalar _) => .ok none
  | v => some <$> v.asKey

/-- The text of a value from which a text is expected; `fault` says what goes wrong otherwise. -/
def asText (fault : Fault) : Value → Except Fault Text
  | .scalar s => s.asText fault
  | _ => .error fault

/-- The text that shows a value, if all of it can be written. -/
def shown (v : Value) : Except Fault Text :=
  if v.isShowable then .ok v.text else .error .badContent

/-- A value read as one entry of a mapping: two members, of which the first can be a key. Here as in
`asFields`, `enter` prepares a value for taking its members. -/
def asEntry (enter : Value → Value) (v : Value) : Except Fault (Scalar × Value) := do
  match ← (enter v).members with
  | [k, w] => return (← k.asKey, w)
  | _ => .error .badContent

/-- A value read as a mapping: a mapping itself, or a row of entries in which later ones count. -/
def asFields (enter : Value → Value) : Value → Except Fault Fields
  | .map es => .ok es
  | v => do return Entries.ofList (← (← (enter v).members).mapM (asEntry enter))

end Value

end NodeForge
