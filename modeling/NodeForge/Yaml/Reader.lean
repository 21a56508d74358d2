import NodeForge.Document.Slots
import NodeForge.Yaml.Builder
import NodeForge.Yaml.Content
import NodeForge.Yaml.Merge

/-!
# Reading YAML

`Yaml.read` gives the document of a text that holds one. The nodes of its graph are made level by
level: a list or a mapping is begun without its members, and filled when all that was begun before
it has been filled. So of two nodes with a wrong content the outer one is found first. A key must be
a scalar. A node that holds itself becomes a container that holds itself.
-/

namespace NodeForge.Yaml

/-! ### Making values -/

/-- What has been made of a node; the members of containers are nodes. -/
inductive Made where
  | scalar (s : Scalar)
  | list (items : List NodeId)
  | pairs (entries : List (NodeId × NodeId))
  | map (entries : List (Scalar × NodeId))
  | set (members : List Scalar)

/-- The kind of container that has been made. -/
def Made.shape : Made → Shape
  | .map _ => .map
  | _ => .list

/-- How far making has come. -/
structure Workshop where
  graph : Graph
  /-- What has been made of each node. -/
  made : Array (Option Made)
  /-- The containers that have been begun on this level, the last one first. -/
  begun : List NodeId

/-- A step of making. -/
abbrev Make := StateT Workshop Read

/-- The text cannot be read. -/
def malformed {α : Type} : Make α := throw .malformed

/-- What has been made of a node. -/
def madeOf (id : NodeId) : Make (Option Made) := do return ((← get).made[id]?).join

/-- Takes note of what is made of a node. -/
def setMade (id : NodeId) (m : Made) : Make Unit :=
  modify fun w => { w with made := w.made.setIfInBounds id (some m) }

/-- Begins a container. -/
def begin (id : NodeId) (m : Made) : Make Unit := do
  setMade id m
  modify fun w => { w with begun := id :: w.begun }

/-- The text of a node that is read as a scalar: a mapping stands for its default value. The number
bounds the mappings on the way. -/
def textOf (g : Graph) : Nat → NodeId → Read Text
  | 0, _ => .error (.fault .endless)
  | fuel + 1, id =>
    match g.node id with
    | .scalar _ text => .ok text
    | .list _ _ => .error .malformed
    | .map _ entries =>
      match entries.find? fun e => g.tag e.1 == .value with
      | some e => textOf g fuel e.2
      | none => .error .malformed

/-- The scalar that a node is when its tag asks for one. A date cannot be the default value of a
mapping. -/
def scalarOf (g : Graph) (tag : Tag) (id : NodeId) : Read Scalar := do
  let text ← textOf g (g.size + 1) id
  match tag, g.node id with
  | .timestamp, .map _ _ => throw (.fault .wrongKind)
  | _, _ => pure ()
  Content.scalar tag text (id + 1)

/-- Makes a node, unless that has been done already; a container is only begun. -/
def make (id : NodeId) : Make Unit := do
  if (← madeOf id).isSome then return
  let g := (← get).graph
  match g.tag id with
  | .list => begin id (.list [])
  | .pairs => begin id (.pairs [])
  | .map => begin id (.map [])
  | .set => begin id (.set [])
  | tag => setMade id (.scalar (← scalarOf g tag id))

/-! ### Filling containers -/

/-- Makes a key, which has to be a scalar. -/
def makeKey (id : NodeId) : Make Scalar := do
  make id
  match ← madeOf id with
  | some (.scalar s) => return s
  | _ => malformed

/-- Makes the entries of a mapping; a key that is written again takes the later value. -/
def makeEntries (mergeCount : Nat) (id : NodeId) : Make (List (Scalar × NodeId)) := do
  let w ← get
  match w.graph.node id with
  | .map _ _ => do
    let (_, graph) ← (Merge.flatten mergeCount id).run w.graph
    modify fun w => { w with graph }
    let entries ← (graph.entries id).mapM fun e => do
      let key ← makeKey e.1
      make e.2
      return (key, e.2)
    return Entries.ofList entries
  | _ => malformed

/-- Makes the one entry of a mapping that stands for it. -/
def makePair (id : NodeId) : Make (NodeId × NodeId) := do
  match (← get).graph.node id with
  | .map _ [e] => do
    make e.1
    make e.2
    return e
  | _ => malformed

/-- The nodes in a list. -/
def itemsOf (id : NodeId) : Make (List NodeId) := do
  match (← get).graph.node id with
  | .list _ items => return items
  | _ => malformed

/-- Fills a container that has been begun. -/
def fill (mergeCount : Nat) (id : NodeId) : Make Unit := do
  match ← madeOf id with
  | some (.list _) => do
    let items ← itemsOf id
    items.forM make
    setMade id (.list items)
  | some (.pairs _) => do
    setMade id (.pairs (← (← itemsOf id).mapM makePair))
  | some (.map _) => do
    setMade id (.map (← makeEntries mergeCount id))
  | some (.set _) => do
    setMade id (.set (Slots.ofKeys (Entries.keys (← makeEntries mergeCount id))))
  | _ => return

/-- Fills the containers that have been begun, and those that are begun by that. The number bounds
the levels. -/
def fillLevels (mergeCount : Nat) : Nat → Make Unit
  | 0 => return
  | fuel + 1 => do
    match ← modifyGet fun w => (w.begun.reverse, { w with begun := [] }) with
    | [] => return
    | ids => do
      ids.forM (fill mergeCount)
      fillLevels mergeCount fuel

/-! ### Values -/

/-- A part of a document in its place. -/
structure Part where
  value : Value
  /-- How many containers outward the outermost one lies that it leads to; 0 if it leads to none. -/
  reach : Nat

/-- What is known while values are put together. -/
structure Stock where
  /-- The values of nodes that do not come up inside themselves. Such a value is the same in every
  place, so it is put together once. -/
  values : Array (Option Value)
  /-- Whether some container has come up inside itself. -/
  isKnotted : Bool

/-- How far the members of a container lead at most. -/
def furthest (members : List Part) : Nat := members.foldl (fun n p => max n p.reach) 0

/-- A pair of two parts. -/
def Part.pair (first second : Part) : Part :=
  ⟨.pair first.value second.value, furthest [first, second] - 1⟩

/-- Keeps the value of a node for its other places. -/
def keep (id : NodeId) (value : Value) : StateM Stock Unit :=
  modify fun s => { s with values := s.values.setIfInBounds id (some value) }

/-- Puts the value of a node together inside of the containers `around` it, the innermost one first;
a pair is a container without a node. The number bounds the depth. -/
def partOf (made : Array (Option Made)) :
    Nat → (around : List (Option NodeId)) → NodeId → StateM Stock Part
  | 0, _, _ => return ⟨.null, 0⟩
  | fuel + 1, around, id => do
    if let some value := ((← get).values[id]?).join then return ⟨value, 0⟩
    let some m := (made[id]?).join | return ⟨.null, 0⟩
    if let some outward := around.idxOf? (some id) then
      modify fun s => { s with isKnotted := true }
      return ⟨.again m.shape outward, outward + 1⟩
    let inside := some id :: around
    let (value, members) ← (
      match m with
      | .scalar s => return (.scalar s, [])
      | .set members => return (.set members, [])
      | .list items => do
        let members ← items.mapM (partOf made fuel inside)
        return (.list (members.map Part.value), members)
      | .pairs entries => do
        let members ← entries.mapM fun e => do
          return Part.pair (← partOf made fuel (none :: inside) e.1)
            (← partOf made fuel (none :: inside) e.2)
        return (.list (members.map Part.value), members)
      | .map entries => do
        let members ← entries.mapM fun e => partOf made fuel inside e.2
        return (.map ((entries.map Prod.fst).zip (members.map Part.value)), members)
      : StateM Stock (Value × List Part))
    -- Where no member leads to the node or beyond, the value is right in every place.
    if furthest members = 0 then keep id value
    return ⟨value, furthest members - 1⟩

/-- A document as it has been read. -/
structure Document where
  root : Value
  /-- The number of its nodes, each of which may have many places. -/
  nodeCount : Nat
  /-- Whether some container in it holds itself. -/
  isKnotted : Bool

/-- The document that lies in a graph, from its outermost node on. -/
def Graph.document (g : Graph) (id : NodeId) : Read Document := do
  let start : Workshop := ⟨g, Array.replicate g.size none, []⟩
  let work : Make Unit := do
    make id
    fillLevels (Merge.sourceCount g) (g.size + 1)
  let (_, w) ← work.run start
  let (part, stock) := (partOf w.made (g.size + 1) [] id).run ⟨Array.replicate g.size none, false⟩
  return ⟨part.value, g.size, stock.isKnotted⟩

/-! ### Texts -/

/-- Whether a character may stand in a text. -/
def isAllowed (c : Char) : Bool :=
  let n := c.toNat
  c == '\t' || c == '\n' || c == '\r' || (0x20 ≤ n && n ≤ 0x7E) || n == 0x85 ||
    (0xA0 ≤ n && n ≤ 0xD7FF) || (0xE000 ≤ n && n ≤ 0xFFFD) || 0x10000 ≤ n

/-- The document in a text that holds one. -/
def read (text : String) : Read Document := do
  let chars := text.toList
  if !chars.all isAllowed then throw .malformed
  let (id, graph) ←
    Builder.graphOf (Scan.ofText (if chars.head? = some '\ufeff' then chars.tail else chars))
  graph.document id

end NodeForge.Yaml
