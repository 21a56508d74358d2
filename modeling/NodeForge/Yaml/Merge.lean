import NodeForge.Yaml.Cursor
import NodeForge.Yaml.Graph

/-!
# Merging mappings

The key `<<` of a mapping names other mappings whose entries belong to it as well. `flatten` puts
them in front of the entries of the mapping itself; of several mappings in a list the last one comes
first. Where a key is written more than once the later entry counts, so the entries of the mapping
itself win, and after them those of the first mapping in the list.

The entries of a mapping that is merged in are flattened first. This changes the graph, and a
mapping may be merged into itself: its key `<<` is taken away before anything else, so a mapping
whose flattening has begun has no such key for long.
-/

namespace NodeForge.Yaml.Merge

/-- The entries of a mapping. -/
abbrev Entries := List (NodeId × NodeId)

/-- A step of merging, which changes the graph. -/
abbrev Merging := StateT Graph Read

/-- Whether an entry says what to merge in. -/
def isMerge (g : Graph) (e : NodeId × NodeId) : Bool := g.tag e.1 == .merge

/-- Takes the first entry that says what to merge in out of a mapping, and gives its value. -/
def takeSource (id : NodeId) : Merging (Option NodeId) :=
  modifyGet fun g =>
    let entries := g.entries id
    match entries.find? (isMerge g) with
    | some e => (some e.2, g.setEntries id (entries.eraseP (isMerge g)))
    | none => (none, g)

/-- Reads the keys for default values in a mapping as texts from now on. -/
def plainKeys (id : NodeId) (g : Graph) : Graph :=
  (g.entries id).foldl (fun g e =>
    if g.tag e.1 = .value then g.set e.1 ((g.node e.1).withTag .text) else g) g

/-- Flattens a mapping, where `gather` takes what is to be merged into it out of it and gives the
entries that it stands for. -/
def flattenWith (gather : NodeId → Merging Entries) (id : NodeId) : Merging Unit := do
  let merged ← gather id
  modify (plainKeys id)
  if !merged.isEmpty then
    modify fun g => g.setEntries id (merged ++ g.entries id)

/-- Flattens a mapping that is merged in, and gives its entries. -/
def entriesWith (gather : NodeId → Merging Entries) (id : NodeId) : Merging Entries := do
  match (← get).node id with
  | .map _ _ => do
    flattenWith gather id
    return (← get).entries id
  | _ => throw .malformed

/-- The entries of a node that is merged in: those of a mapping, or of the mappings in a list. -/
def sourceWith (gather : NodeId → Merging Entries) (id : NodeId) : Merging Entries := do
  match (← get).node id with
  | .list _ items => return (← items.mapM (entriesWith gather)).reverse.flatten
  | _ => entriesWith gather id

/-- Takes what is to be merged into a mapping out of it, and gives the entries that it stands for.
The number bounds the keys that say what to merge in. -/
def gather : Nat → NodeId → Merging Entries
  | 0, _ => return []
  | fuel + 1, id => do
    match ← takeSource id with
    | none => return []
    | some source => do
      let first ← sourceWith (gather fuel) source
      return first ++ (← gather fuel id)

/-- Flattens a mapping in a graph with a number of keys that say what to merge in. -/
def flatten (count : Nat) (id : NodeId) : Merging Unit := flattenWith (gather (count + 1)) id

/-- The number of keys in a graph that say what to merge in. -/
def sourceCount (g : Graph) : Nat :=
  g.nodes.foldl (fun n node =>
    match node with
    | .map _ entries => n + entries.countP (isMerge g)
    | _ => n) 0

end NodeForge.Yaml.Merge
