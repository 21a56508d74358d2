import NodeForge.Yaml.Tag

/-!
# The graph of a YAML document

The nodes of a document are scalars, lists and mappings, each with a tag. An alias is its anchor's
node once more, also inside of that node, so the nodes make a graph: lists and mappings hold the
numbers of other nodes, and a number stands for one node wherever it comes up.
-/

namespace NodeForge.Yaml

/-- The number of a node in a graph. -/
abbrev NodeId := Nat

/-- A node of a document. -/
inductive Node where
  | scalar (tag : Tag) (text : Text)
  | list (tag : Tag) (items : List NodeId)
  | map (tag : Tag) (entries : List (NodeId × NodeId))
deriving Repr, DecidableEq

namespace Node

/-- What is meant where nothing is written. -/
def nothing : Node := .scalar .null []

/-- The tag of a node. -/
def tag : Node → Tag
  | .scalar t _ | .list t _ | .map t _ => t

/-- The node under another tag. -/
def withTag (tag : Tag) : Node → Node
  | .scalar _ text => .scalar tag text
  | .list _ items => .list tag items
  | .map _ entries => .map tag entries

end Node

/-- The nodes of a document by their numbers. -/
structure Graph where
  nodes : Array Node

namespace Graph

/-- A graph without nodes. -/
def empty : Graph := ⟨#[]⟩

/-- The number of nodes, which is the number of the next one. -/
def size (g : Graph) : Nat := g.nodes.size

/-- The node of a number. -/
def node (g : Graph) (id : NodeId) : Node := g.nodes.getD id Node.nothing

/-- The tag of the node of a number. -/
def tag (g : Graph) (id : NodeId) : Tag := (g.node id).tag

/-- Adds a node behind all others. -/
def add (n : Node) (g : Graph) : Graph := ⟨g.nodes.push n⟩

/-- Puts a node in place of another one. -/
def set (id : NodeId) (n : Node) (g : Graph) : Graph := ⟨g.nodes.setIfInBounds id n⟩

/-- Gives a mapping other entries. -/
def setEntries (id : NodeId) (entries : List (NodeId × NodeId)) (g : Graph) : Graph :=
  match g.node id with
  | .map tag _ => g.set id (.map tag entries)
  | _ => g

/-- The entries of a mapping. -/
def entries (g : Graph) (id : NodeId) : List (NodeId × NodeId) :=
  match g.node id with
  | .map _ entries => entries
  | _ => []

end Graph

end NodeForge.Yaml
