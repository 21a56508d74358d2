import NodeForge.Document.Scalar

/-!
# The order of sets

The members of a set come up in the order of the slots in which they lie. A number has a code, and
the code leads to a row of slots of which the first free one is taken; so where a number lies hangs
on the number of slots and on what has been put in before. A set has more slots than members, and
gets more when it fills up.

Null, the empty text, the empty row of bytes and moments in universal time have a code as well. All
other members have none: a set that holds some keeps the order in which its members were written.
-/

namespace NodeForge.Slots

/-! ### Codes -/

/-- The prime number by which codes are reduced. -/
def modulus : Nat := Binary64.twoPow 61 - 1

/-- The code of infinity. -/
def infiniteCode : Nat := 314159

/-- The code of null. -/
def nullCode : Nat := 0xFCA86420

/-- A code with a sign as a word of 64 bits. The code -1 is not in use. -/
def word (negative : Bool) (code : Nat) : Nat :=
  if negative && code != 0 then Binary64.twoPow 64 - (if code = 1 then 2 else code) else code

/-- The code of a place among the numbers: its value in the arithmetic of the modulus, so that equal
numbers have one code. The denominator of a number is a power of two. -/
def codeAt? : Scalar.Place → Option Nat
  | .at n d =>
    let half := Binary64.twoPow 60
    some (word (n < 0) (n.natAbs * Nat.pow half (Nat.log2 d % 61) % modulus))
  | .above => some (word false infiniteCode)
  | .below => some (word true infiniteCode)
  | .nowhere _ => none

/-- The prime number that the code of a row begins with. -/
def rowStart : UInt64 := 2870177450012600261

/-- The code of a row that goes on with one more code. -/
def rowStep (row code : UInt64) : UInt64 :=
  let row := row + code * 14029467366897019727
  (row <<< 31 ||| row >>> 33) * 11400714785074694791

/-- The code of a row of codes. The code -1 is not in use. -/
def rowCode (codes : List Nat) : Nat :=
  let row := (codes.map UInt64.ofNat).foldl rowStep rowStart
  let row := row + (UInt64.ofNat codes.length ^^^ rowStart ^^^ 3527539)
  if row = 0 - 1 then 1546275796 else row.toNat

/-- The code of a moment in universal time: that of its days, seconds and microseconds. -/
def momentCode (m : Moment) : Nat :=
  let instant := m.instant.toNat
  let seconds := instant / 1000000
  rowCode [seconds / 86400, seconds % 86400, instant % 1000000]

/-- The code of a member that has one. -/
def code? : Scalar → Option Nat
  | .null => some nullCode
  | .str [] | .bytes [] => some 0
  | .moment m => if m.offset.isSome then some (momentCode m) else none
  | s => s.place?.bind codeAt?

/-! ### Tables -/

/-- A member with its code. -/
structure Coded where
  code : Nat
  member : Scalar

/-- The slots of a set. -/
abbrev Table := Array (Option Coded)

/-- The number of slots that a set has at least. -/
def leastSize : Nat := 8

/-- The number of slots behind the first one that are looked at in one go. -/
def rowLength : Nat := 9

/-- The least doubled size beyond a number. The first number bounds the doublings. -/
def sizeBeyond (n : Nat) : Nat → Nat → Nat
  | 0, size => size
  | fuel + 1, size => if n < size then size else sizeBeyond n fuel (2 * size)

/-- A table without members, of a size beyond a number. -/
def tableBeyond (n : Nat) : Table := Array.replicate (sizeBeyond n (n + 1) leastSize) none

/-- The first free slot on the way of a code. A row of slots is looked at if it ends in the table,
else one slot; then the way goes on elsewhere. The number bounds the rows. -/
def freeSlot (t : Table) : Nat → (slot rest : Nat) → Nat
  | 0, slot, _ => slot
  | fuel + 1, slot, rest =>
    let row := if slot + rowLength < t.size then List.range' slot (rowLength + 1) else [slot]
    match row.find? fun i => (t[i]?.join).isNone with
    | some i => i
    | none => freeSlot t fuel ((5 * slot + 1 + rest / 32) % t.size) (rest / 32)

/-- Puts a member that is not there yet into a table. -/
def put (t : Table) (m : Coded) : Table :=
  t.setIfInBounds (freeSlot t (t.size + 13) (m.code % t.size) m.code) (some m)

/-- The members of a table in the order of their slots. -/
def membersOf (t : Table) : List Coded := t.toList.filterMap id

/-- Whether a number of members is too large for a table. -/
def isCrowded (count : Nat) (t : Table) : Bool := decide (3 * (t.size - 1) ≤ 5 * count)

/-- Puts a member into a table, which grows when it fills up. -/
def putGrowing (t : Table) (m : Coded) : Table :=
  let t := put t m
  let all := membersOf t
  if isCrowded all.length t then all.foldl put (tableBeyond (4 * all.length)) else t

/-! ### Orders -/

/-- Members with their codes, if all of them have one. -/
def coded? (members : List Scalar) : Option (List Coded) :=
  members.mapM fun s => (code? s).map fun code => ⟨code, s⟩

/-- The members of a set that is made of distinct members one by one, in their order. -/
def inOrder (members : List Scalar) : List Scalar :=
  match coded? members with
  | some all => (membersOf (all.foldl putGrowing (tableBeyond 0))).map Coded.member
  | none => members

/-- The members of a set that is made of the keys of a mapping, in their order: there are enough
slots for all of them from the beginning. -/
def ofKeys (keys : List Scalar) : List Scalar :=
  match coded? keys with
  | some all =>
    let start := tableBeyond 0
    let start := if isCrowded all.length start then tableBeyond (2 * all.length) else start
    (membersOf (all.foldl putGrowing start)).map Coded.member
  | none => keys

end NodeForge.Slots
