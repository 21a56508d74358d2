import NodeForge.Yaml.Cursor
import NodeForge.Yaml.Graph
import NodeForge.Yaml.Layout

/-!
# From tokens to a graph

`Builder.graphOf` builds the graph of a text that holds one document. Tags that are left out are
filled in: a plain scalar gets the tag that its writing asks for, all else that of its kind. A node
is under its anchor as soon as it begins, so an alias inside of it is the node itself.
-/

namespace NodeForge.Yaml.Builder

/-! ### Handles -/

/-- The handles that need no directive. -/
def standardHandles : List (String × String) := [("!", "!"), ("!!", Tag.standard)]

/-! ### Steps

A graph is built by a descent along the tokens. -/

/-- What building a graph goes through. -/
structure Supply where
  tokens : List Token
  /-- What is wrong when the tokens have run out. -/
  stop : Trouble
  /-- The nodes under their anchors. -/
  anchors : List (String × NodeId)
  graph : Graph
  /-- The number of lists and mappings around the place. -/
  depth : Nat

/-- A step of building. -/
abbrev Build := StateT Supply Read

/-- The text is not well-formed. -/
def malformed {α : Type} : Build α := throw .malformed

/-- The next token. -/
def peek : Build Token := do
  let s ← get
  match s.tokens with
  | t :: _ => return t
  | [] => throw s.stop

/-- Passes over the next token. -/
def advance : Build Unit := modify fun s => { s with tokens := s.tokens.tail }

/-- Passes over a token if it comes next. -/
def accept (t : Token) : Build Bool := do
  if (← peek) = t then
    advance
    return true
  return false

/-- Passes over a token that has to come next. -/
def expect (t : Token) : Build Unit := do
  if !(← accept t) then malformed

/-- Whether one of some tokens comes next. -/
def isNext (ts : List Token) : Build Bool := do return ts.contains (← peek)

/-- Adds a node to the graph. -/
def addNode (n : Node) : Build NodeId :=
  modifyGet fun s => (s.graph.size, { s with graph := s.graph.add n })

/-- Puts a node in place of one that has been begun. -/
def setNode (id : NodeId) (n : Node) : Build NodeId :=
  modifyGet fun s => (id, { s with graph := s.graph.set id n })

/-- What is meant where nothing is written. -/
def nothing : Build NodeId := addNode Node.nothing

/-- The deepest nesting of lists and mappings that is gone into. -/
def deepest : Nat := 480

/-- Builds what is inside of a list or a mapping, which must not be nested too deeply. -/
def inside {α : Type} (build : Build α) : Build α := do
  if deepest ≤ (← get).depth then throw (.fault .endless)
  modify fun s => { s with depth := s.depth + 1 }
  let result ← build
  modify fun s => { s with depth := s.depth - 1 }
  return result

/-! ### Properties of nodes -/

/-- The handles of a document as far as they are known. -/
abbrev Handles := List (String × String)

/-- The tag and the anchor of a node as they are written. -/
structure Properties where
  tag : Option String
  anchor : Option String

/-- The full name of a tag. -/
def tagName (handles : Handles) (handle : Option String) (suffix : String) : Build String :=
  match handle with
  | none => return suffix
  | some h =>
    match handles.lookup h with
    | some start => return start ++ suffix
    | none => malformed

/-- Takes a tag if one comes next. -/
def tag? : Build (Option (Option String × String)) := do
  match ← peek with
  | .tag handle suffix => do
    advance
    return some (handle, suffix)
  | _ => return none

/-- Takes an anchor if one comes next. -/
def anchor? : Build (Option String) := do
  match ← peek with
  | .anchor name => do
    advance
    return some name
  | _ => return none

/-- Takes a tag and an anchor, in either order. -/
def properties (handles : Handles) : Build Properties := do
  let before ← anchor?
  let tag ← tag?
  let after ← if before.isNone && tag.isSome then anchor? else pure none
  let name ← tag.mapM fun (handle, suffix) => tagName handles handle suffix
  return ⟨name, before.orElse fun _ => after⟩

/-- The tag of a list or a mapping. -/
def tagOf (other : Tag) (p : Properties) : Tag :=
  match p.tag with
  | none | some "!" => other
  | some name => Tag.ofName name

/-- The tag of a scalar. -/
def scalarTag (isPlain : Bool) (text : Text) (p : Properties) : Tag :=
  match p.tag with
  | none => if isPlain then .ofKind (Plain.kindOfText text) else .text
  | some "!" => .ofKind (Plain.kindOfText text)
  | some name => Tag.ofName name

/-- Begins a node under its anchor, which must be new. -/
def beginNode (p : Properties) (n : Node) : Build NodeId := do
  let id ← addNode n
  if let some name := p.anchor then
    if ((← get).anchors.lookup name).isSome then malformed
    modify fun s => { s with anchors := (name, id) :: s.anchors }
  return id

/-- The node under an anchor. -/
def aliased (name : String) : Build NodeId := do
  match (← get).anchors.lookup name with
  | some id => return id
  | none => malformed

/-- Where a node stands. -/
inductive Position where
  /-- Between brackets. -/
  | flow
  /-- In a block. -/
  | block
  /-- In an entry of a block mapping, where a list needs no indentation. -/
  | entry
deriving DecidableEq

mutual

/-- Builds the node that comes next. The number bounds the steps down the tokens. -/
def node (handles : Handles) : Nat → Position → Build NodeId
  | 0, _ => malformed
  | fuel + 1, position => do
    match ← peek with
    | .alias name => do
      advance
      aliased name
    | _ => do content handles fuel position (← properties handles)

/-- Builds what follows the properties of a node. -/
def content (handles : Handles) : Nat → Position → Properties → Build NodeId
  | 0, _, _ => malformed
  | fuel + 1, position, p => do
    let next ← peek
    let inBlock := position ≠ .flow
    let beginList : Build NodeId := beginNode p (.list (tagOf .list p) [])
    let beginMap : Build NodeId := beginNode p (.map (tagOf .map p) [])
    let endList (id : NodeId) (items : List NodeId) : Build NodeId :=
      setNode id (.list (tagOf .list p) items)
    let endMap (id : NodeId) (entries : List (NodeId × NodeId)) : Build NodeId :=
      setNode id (.map (tagOf .map p) entries)
    match next with
    | .scalar text isPlain => do
      advance
      beginNode p (.scalar (scalarTag isPlain text p) text)
    | .flowSequence => do
      advance
      endList (← beginList) (← inside (flowItems handles fuel true))
    | .flowMapping => do
      advance
      endMap (← beginMap) (← inside (flowEntries handles fuel true))
    | next => do
      if next = .blockEntry && position = .entry then
        endList (← beginList) (← inside (indentlessItems handles fuel))
      else if next = .blockSequence && inBlock then
        advance
        endList (← beginList) (← inside (blockItems handles fuel))
      else if next = .blockMapping && inBlock then
        advance
        endMap (← beginMap) (← inside (blockEntries handles fuel))
      else if p.tag.isSome || p.anchor.isSome then
        beginNode p (.scalar (scalarTag true [] p) [])
      else malformed

/-- Builds a node, or nothing if one of some tokens comes next. -/
def nodeUnless (handles : Handles) :
    Nat → List Token → Position → Build NodeId
  | 0, _, _ => malformed
  | fuel + 1, ends, position => do
    if ← isNext ends then nothing else node handles fuel position

/-- Builds the members of a list in a block. -/
def blockItems (handles : Handles) : Nat → Build (List NodeId)
  | 0 => malformed
  | fuel + 1 => do
    if ← accept .blockEntry then
      let n ← nodeUnless handles fuel [.blockEntry, .blockEnd] .block
      return n :: (← blockItems handles fuel)
    expect .blockEnd
    return []

/-- Builds the members of a list that has no block of its own. -/
def indentlessItems (handles : Handles) : Nat → Build (List NodeId)
  | 0 => malformed
  | fuel + 1 => do
    if ← accept .blockEntry then
      let n ← nodeUnless handles fuel [.blockEntry, .key, .value, .blockEnd] .block
      return n :: (← indentlessItems handles fuel)
    return []

/-- Builds the entries of a mapping in a block. -/
def blockEntries (handles : Handles) : Nat → Build (List (NodeId × NodeId))
  | 0 => malformed
  | fuel + 1 => do
    if ← accept .key then
      let ends := [.key, .value, .blockEnd]
      let k ← nodeUnless handles fuel ends .entry
      let v ← if ← accept .value then nodeUnless handles fuel ends .entry else nothing
      return (k, v) :: (← blockEntries handles fuel)
    expect .blockEnd
    return []

/-- Builds the members of a list between brackets. A member may be a mapping with one entry. -/
def flowItems (handles : Handles) : Nat → (isFirst : Bool) → Build (List NodeId)
  | 0, _ => malformed
  | fuel + 1, isFirst => do
    if ← accept .flowSequenceEnd then return []
    if !isFirst then expect .flowEntry
    if ← accept .flowSequenceEnd then return []
    let n ←
      if ← accept .key then inside do
        let k ← nodeUnless handles fuel [.value, .flowEntry, .flowSequenceEnd] .flow
        let v ←
          if ← accept .value then nodeUnless handles fuel [.flowEntry, .flowSequenceEnd] .flow
          else nothing
        addNode (.map .map [(k, v)])
      else node handles fuel .flow
    return n :: (← flowItems handles fuel false)

/-- Builds the entries of a mapping between braces. A key may stand alone. -/
def flowEntries (handles : Handles) :
    Nat → (isFirst : Bool) → Build (List (NodeId × NodeId))
  | 0, _ => malformed
  | fuel + 1, isFirst => do
    if ← accept .flowMappingEnd then return []
    if !isFirst then expect .flowEntry
    if ← accept .flowMappingEnd then return []
    let e ←
      if ← accept .key then do
        let k ← nodeUnless handles fuel [.value, .flowEntry, .flowMappingEnd] .flow
        let v ←
          if ← accept .value then nodeUnless handles fuel [.flowEntry, .flowMappingEnd] .flow
          else nothing
        pure (k, v)
      else do
        let k ← node handles fuel .flow
        pure (k, ← nothing)
    return e :: (← flowEntries handles fuel false)

end

/-! ### Documents -/

/-- Takes the directives that come next. There must be one version at most, the first, and each
handle only once. The number bounds the directives. -/
def directives : Nat → (hasVersion : Bool) → (handles : Handles) → Build Handles
  | 0, _, _ => malformed
  | fuel + 1, hasVersion, handles => do
    match ← peek with
    | .version major _ => do
      if hasVersion || major != 1 then malformed
      advance
      directives fuel true handles
    | .handle name start => do
      if (handles.lookup name).isSome then malformed
      advance
      directives fuel hasVersion ((name, start) :: handles)
    | .otherDirective => do
      advance
      directives fuel hasVersion handles
    | _ => return handles ++ standardHandles

/-- Whether a token can only begin a document with its marks. -/
def beginsExplicit : Token → Bool
  | .version _ _ | .handle _ _ | .otherDirective | .documentStart | .streamEnd => true
  | _ => false

/-- Whether a token ends a document before it has a node. -/
def endsEmpty (t : Token) : Bool := beginsExplicit t || t == .documentEnd

/-- The bound for the steps that building a graph from some tokens takes. -/
def stepBound (tokens : List Token) : Nat := 3 * tokens.length + 3

/-- Builds the node of a document. -/
def documentNode (fuel : Nat) : Build NodeId := do
  let first ← peek
  if !beginsExplicit first then node standardHandles fuel .block
  else if first = .streamEnd then nothing
  else do
    let handles ← directives fuel false []
    expect .documentStart
    if endsEmpty (← peek) then nothing else node handles fuel .block

/-- Passes over the marks of the end of a document. The number bounds them. -/
def endDocument : Nat → Build Unit
  | 0 => malformed
  | fuel + 1 => do if ← accept .documentEnd then endDocument fuel

/-- Builds the node of a text that holds one document; an empty text stands for null. -/
def onlyDocument (fuel : Nat) : Build NodeId := do
  let id ← documentNode fuel
  endDocument fuel
  if (← peek) ≠ .streamEnd then
    let _ ← directives fuel false []
    malformed
  return id

/-- The graph of a text that holds one document, and the number of its outermost node. -/
def graphOf (scan : Scan) : Read (NodeId × Graph) := do
  let start : Supply := ⟨scan.tokens, scan.stop, [], Graph.empty, 0⟩
  let (id, s) ← (onlyDocument (stepBound scan.tokens)).run start
  return (id, s.graph)

end NodeForge.Yaml.Builder
