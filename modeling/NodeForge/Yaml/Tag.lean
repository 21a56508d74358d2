import NodeForge.Yaml.Plain

/-!
# Tags

A tag says what a node of a YAML document is to be read as. Known tags have a name behind a common
beginning; where none is written, a plain scalar gets the tag that its writing asks for.
-/

namespace NodeForge.Yaml

/-- What a node is to be read as. -/
inductive Tag where
  | text
  | null
  | bool
  | int
  | float
  | timestamp
  | binary
  | list
  | map
  | set
  /-- A mapping written as a list of mappings with one entry each. -/
  | pairs
  /-- The key under which other mappings are merged in. -/
  | merge
  /-- The key of a default value. -/
  | value
  | unknown
deriving Repr, DecidableEq

namespace Tag

/-- The beginning of the names of the known tags. -/
def standard : String := "tag:yaml.org,2002:"

/-- The names of the known tags behind their common beginning. -/
def names : List (String × Tag) :=
  [("str", .text), ("null", .null), ("bool", .bool), ("int", .int), ("float", .float),
    ("timestamp", .timestamp), ("binary", .binary), ("seq", .list), ("map", .map), ("set", .set),
    ("omap", .pairs), ("pairs", .pairs), ("merge", .merge), ("value", .value)]

/-- The tag of a name. -/
def ofName (name : String) : Tag :=
  ((names.find? fun e => standard ++ e.1 == name).map Prod.snd).getD .unknown

/-- The tag of a plain scalar. -/
def ofKind : Plain.Kind → Tag
  | .text => .text
  | .null => .null
  | .bool => .bool
  | .int => .int
  | .float => .float
  | .timestamp => .timestamp
  | .merge => .merge
  | .value => .value
  | .mark => .unknown

end Tag

end NodeForge.Yaml
