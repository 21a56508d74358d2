/-!
# What can go wrong with files

Making a file or a folder can fail because of what there is already, or because of its name.
-/

namespace NodeForge

/-- Why a file or a folder could not be made. -/
inductive StoreFault where
  /-- There is something else at its place. -/
  | inTheWay
  /-- A folder is at the place of a file. -/
  | isFolder
  /-- On the way to it there is a file in place of a folder. -/
  | noFolder
  /-- A folder on the way to it is missing. -/
  | missing
  /-- A name on the way to it, or the whole way, is too long. -/
  | tooLong
  /-- There is a null character on the way to it. -/
  | notNameable
  /-- Half a pair of code units is in its name or its text; it has no form in a file. -/
  | notEncodable
deriving Repr, DecidableEq

end NodeForge
