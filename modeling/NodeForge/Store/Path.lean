import NodeForge.Text.Basic

/-!
# Paths

A path is written as names between slashes. Empty names and single points say nothing and are left
out; two points stay, since what they lead to hangs on the folders there are.
-/

namespace NodeForge

/-- The way to a file or a folder. -/
structure Path where
  /-- The slashes that a path from the root begins with; none for a path from where one is. -/
  root : Text
  names : List Text
deriving Repr, DecidableEq

namespace Path

/-- The slashes at the start of a path. Two are told from one, more count as one. -/
def rootOf (text : Text) : Text :=
  let slashes := (text.takeWhile (· == Sign.char '/')).length
  if slashes = 0 then "" else if slashes = 2 then "//" else "/"

/-- The path that a text stands for. -/
def ofText (text : Text) : Path :=
  ⟨rootOf text, (Text.splitAt '/' text).filter fun n => !n.isEmpty && n != "."⟩

/-- The path as a text; a single point is where one is. -/
def text (p : Path) : Text :=
  if p.root.isEmpty && p.names.isEmpty then "." else p.root ++ Text.joined "/" p.names

/-- A path that goes on from another one, unless it begins at the root. -/
def join (p q : Path) : Path :=
  if q.root.isEmpty then ⟨p.root, p.names ++ q.names⟩ else q

/-- The path to the folder that another one lies in. -/
def parent (p : Path) : Path := ⟨p.root, p.names.dropLast⟩

/-- A name without its last point and what follows; a point at either end of a name stays. -/
def withoutSuffix (name : Text) : Text :=
  let (before, after) := Rows.cutAtLast (Sign.char '.') name
  if before.length ≤ 1 || after.isEmpty then name else before.dropLast

/-- The last name without its ending. -/
def stem (p : Path) : Text := withoutSuffix (p.names.getLast?.getD [])

/-! ### Names as bytes -/

/-- The number of bytes that a sign takes in a name. The halves from U+DC80 to U+DCFF stand for one
byte each, and the other halves for nothing. -/
def bytesOf? : Sign → Option Nat
  | .char c => some c.utf8Size
  | .half k => if 0x480 ≤ k.val ∧ k.val < 0x500 then some 1 else none

/-- The number of bytes of a name, if it can be one. -/
def byteSize? (name : Text) : Option Nat :=
  (name.mapM bytesOf?).map fun sizes => sizes.foldl (· + ·) 0

end Path

end NodeForge
