import NodeForge.Text.Basic
import NodeForge.Source.Condition

/-!
# Dividers

Comments of three lines that set the parts of generated code apart: a title centred between two
rules.
-/

namespace NodeForge.Source

/-- A divider: its title, and the character and length of its rules. -/
structure Divider where
  title : Text
  char : Char
  width : Nat

namespace Divider

/-- The title in the middle of the width. Of an odd number of blanks the extra one stands in front
where the width is odd too, and is cut at the end otherwise. -/
def centred (d : Divider) : Text :=
  let free := d.width - d.title.length
  let left := free / 2 + if free % 2 = 1 && d.width % 2 = 1 then 1 else 0
  Text.trimEnd (Text.repeated ' ' left ++ d.title)

/-- The lines of a divider. -/
def lines (d : Divider) : Lines :=
  let rule := "// " ++ Text.repeated d.char d.width
  [rule, "// " ++ d.centred, rule]

/-- The divider in front of a resource. -/
def ofResource (resource : Text) : Divider := ⟨literal resource, '*', 70⟩

/-- The divider in front of an operation. -/
def ofOperation (resource operationId : Text) : Divider :=
  ⟨literal resource ++ ": " ++ operationId, '-', 40⟩

end Divider

/-- The divider in front of an operation, with the address of its documentation below where it has
one. -/
def operationHeading (resource operationId : Text) (url : Option Text) : Lines :=
  let address : Lines :=
    match url with
    | some url => if url.isEmpty then [] else ["", "// " ++ url]
    | none => []
  (Divider.ofOperation resource operationId).lines ++ address

end NodeForge.Source
