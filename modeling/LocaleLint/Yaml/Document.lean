import LocaleLint.Value.SetOrder
import LocaleLint.Yaml.Graph
import LocaleLint.Yaml.Scalar

/-! # Documents

A document's values: scalars, and containers that are referred to by number. The containers of a graph
are filled one after another in the order in which they are first met, each one's members being met
while it is filled; the first fault in that order is the document's. -/

namespace LocaleLint.Yaml

/-- A value of a document: a scalar, or a container by its number. -/
inductive Ref where
  | scalar (v : Value)
  | container (id : Nat)
  deriving Repr, Inhabited

/-- What a container holds. The keys of a mapping and the members of a set are scalars. -/
inductive Cell where
  | list (items : List Ref)
  | tuple (items : List Ref)
  | set (items : List Value)
  | mapping (entries : Entries Value Ref)
  deriving Repr, Inhabited

/-- The containers of a document and its outermost value. -/
structure Document where
  cells : Array Cell
  root : Ref
  deriving Repr

/-- What is known while a document is built from a graph. -/
structure Filling where
  graph : Graph
  cells : Array Cell
  /-- The values of the nodes that were met. -/
  met : Array (Option Ref)
  /-- The containers that are still empty, with their nodes, the latest first. -/
  waiting : List (NodeId × Nat)

/-- A step that builds values. -/
abbrev Fill := StateT Filling (Except LoadError)

namespace Fill

def malformed {α : Type} : Fill α := throw .malformed

def nodeOf (id : NodeId) : Fill Node := return (← get).graph.node id

/-! ### Merging -/

/-- The value of the first entry whose key is the merge mark, and the other entries. -/
def splitMerge? (graph : Graph) : List (NodeId × NodeId) → Option (NodeId × List (NodeId × NodeId))
  | [] => none
  | (key, value) :: rest =>
    if (graph.node key).tag = .merge then some (value, rest)
    else (splitMerge? graph rest).map fun (found, others) => (found, (key, value) :: others)

/-- The entries of a node that is a mapping. -/
def entriesOf? (graph : Graph) (id : NodeId) : Option (List (NodeId × NodeId)) :=
  match (graph.node id).content with
  | .mapping entries => some entries
  | _ => none

/-- Makes texts of the keys of a mapping that are the value mark. -/
def retagKeys (graph : Graph) (entries : List (NodeId × NodeId)) : Graph :=
  entries.foldl (fun g entry => if (g.node entry.1).tag = .value then g.setTag entry.1 .text else g) graph

mutual

/-- Replaces the merge entries of a mapping by the entries that they merge, which come first. -/
def flatten (id : NodeId) : Nat → Fill Unit
  | 0 => malformed
  | n + 1 => do
    let merged ← takeMerges id [] n
    modify fun s =>
      let own := (entriesOf? s.graph id).getD []
      let graph := retagKeys s.graph own
      { s with graph := if merged.isEmpty then graph else graph.setContent id (.mapping (merged ++ own)) }

/-- Removes the merge entries of a mapping one after another and collects what they merge. A list of
    mappings is merged from its end, so that entries of the first one count. -/
def takeMerges (id : NodeId) (merged : List (NodeId × NodeId)) : Nat → Fill (List (NodeId × NodeId))
  | 0 => malformed
  | n + 1 => do
    let s ← get
    match splitMerge? s.graph ((entriesOf? s.graph id).getD []) with
    | none => return merged
    | some (source, others) =>
      set { s with graph := s.graph.setContent id (.mapping others) }
      match (s.graph.node source).content with
      | .scalar _ => malformed
      | .mapping _ =>
        let entries ← flattened source n
        takeMerges id (merged ++ entries) n
      | .sequence items =>
        let parts ← items.mapM fun item => do
          if (entriesOf? (← get).graph item).isNone then malformed
          flattened item n
        takeMerges id (merged ++ parts.reverse.flatten) n

/-- The entries of a mapping after flattening it. -/
def flattened (id : NodeId) : Nat → Fill (List (NodeId × NodeId))
  | 0 => malformed
  | n + 1 => do
    flatten id n
    return (entriesOf? (← get).graph id).getD []

end

/-- The number of entries of all mappings of a graph. -/
def entryCount (graph : Graph) : Nat :=
  graph.foldl (fun n node =>
    match node.content with
    | .mapping entries => n + entries.length
    | _ => n) 0

/-! ### Values of nodes -/

/-- The text of a scalar node. A mapping with a value mark among its keys stands for that key's value. -/
def scalarText (graph : Graph) (id : NodeId) : Nat → Except LoadError String
  | 0 => .error .endlessScalar
  | n + 1 =>
    match (graph.node id).content with
    | .scalar text => .ok text
    | .sequence _ => .error .malformed
    | .mapping entries =>
      match entries.find? fun entry => (graph.node entry.1).tag = .value with
      | some (_, value) => scalarText graph value n
      | none => .error .malformed

/-- A new container of a kind, which is filled later. -/
def addContainer (id : NodeId) (cell : Cell) : Fill Ref := do
  let s ← get
  let number := s.cells.size
  set { s with cells := s.cells.push cell, waiting := (id, number) :: s.waiting }
  return .container number

/-- A new container that is filled already. -/
def addFilled (cell : Cell) : Fill Ref := do
  let s ← get
  set { s with cells := s.cells.push cell }
  return .container s.cells.size

/-- The value of a node that was not met before. -/
def newValue (id : NodeId) : Fill Ref := do
  let graph := (← get).graph
  let node := graph.node id
  match node.tag with
  | .sequence | .orderedMapping | .pairs => addContainer id (.list [])
  | .set => addContainer id (.set [])
  | .mapping => addContainer id (.mapping [])
  | .merge | .value | .unknown => malformed
  | tag =>
    match scalarText graph id (graph.size + 1) with
    | .error e => throw e
    | .ok text =>
      match tag, node.content with
      | .timestamp, .mapping _ => throw .timestampOfCollection
      | _, _ =>
        match scalarValue tag id text.toList with
        | .ok v => return .scalar v
        | .error e => throw e

/-- The value of a node; it is the same whenever the node is met. -/
def valueOf (id : NodeId) : Fill Ref := do
  match (← get).met.getD id none with
  | some ref => return ref
  | none =>
    let ref ← newValue id
    modify fun s => { s with met := s.met.setIfInBounds id (some ref) }
    return ref

/-- The entries of a mapping: a later value replaces an earlier one of the same key, and containers
    cannot be keys. -/
def mappingEntries (entries : List (NodeId × NodeId)) : Fill (Entries Value Ref) :=
  entries.foldlM (fun sofar (key, value) => do
    match ← valueOf key with
    | .container _ => malformed
    | .scalar k => return sofar.put Value.sameKey k (← valueOf value)) []

/-- A pair of an ordered mapping: a mapping of one entry. -/
def pair (id : NodeId) : Fill Ref := do
  match entriesOf? (← get).graph id with
  | some [(key, value)] =>
    let k ← valueOf key
    let v ← valueOf value
    addFilled (.tuple [k, v])
  | _ => malformed

/-- The content of a container, from its node. -/
def cellOf (id : NodeId) : Fill Cell := do
  let node ← nodeOf id
  match node.tag, node.content with
  | .sequence, .sequence items => return .list (← items.mapM valueOf)
  | .orderedMapping, .sequence items | .pairs, .sequence items => return .list (← items.mapM pair)
  | .mapping, .mapping _ =>
    let entries ← flattened id (3 * entryCount (← get).graph + 9)
    return .mapping (← mappingEntries entries)
  | .set, .mapping _ =>
    let entries ← flattened id (3 * entryCount (← get).graph + 9)
    return .set (Value.inTableOrder (← mappingEntries entries).keys)
  | _, _ => malformed

/-- Fills the containers that wait, those that are met on the way after all that waited before. -/
def fillAll : Nat → Fill Unit
  | 0 => malformed
  | n + 1 => do
    let s ← get
    match s.waiting.reverse with
    | [] => return
    | batch =>
      set { s with waiting := [] }
      for (id, number) in batch do
        let cell ← cellOf id
        modify fun s => { s with cells := s.cells.setIfInBounds number cell }
      fillAll n

end Fill

def Document.ofGraph (graph : Graph) (root : NodeId) : Except LoadError Document :=
  let filling : Filling := { graph, cells := #[], met := Array.replicate graph.size none, waiting := [] }
  let build : Fill Ref := do
    let ref ← Fill.valueOf root
    Fill.fillAll (graph.size + 1)
    return ref
  match build filling with
  | .ok (ref, s) => .ok ⟨s.cells, ref⟩
  | .error e => .error e

end LocaleLint.Yaml
