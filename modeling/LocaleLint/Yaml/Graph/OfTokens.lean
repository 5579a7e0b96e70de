import LocaleLint.Yaml.Graph
import LocaleLint.Yaml.Token

/-! # The graph of a token sequence

A text holds at most one document. Its tokens are read from the front; collections get their number
before their members, so that these can refer to them by an alias. -/

namespace LocaleLint.Yaml

/-- What is known while tokens are read. -/
structure Draft where
  tokens : List Token
  failure : Option LoadError
  graph : Graph
  anchors : List (String × NodeId)
  handles : List (String × String)

/-- A step that reads tokens. -/
abbrev Build := StateT Draft (Except LoadError)

namespace Build

def malformed {α : Type} : Build α := throw .malformed

/-- The next token, if the text has not ended. -/
def peek? : Build (Option Token) := do
  let d ← get
  match d.tokens, d.failure with
  | token :: _, _ => return some token
  | [], some e => throw e
  | [], none => return none

def skip : Build Unit := modify fun d => { d with tokens := d.tokens.drop 1 }

/-- Moves over a token that has to come next. -/
def expect (token : Token) : Build Unit := do
  if (← peek?) = some token then skip else malformed

/-- Whether one of some tokens comes next. -/
def nextIn (tokens : List Token) : Build Bool := do
  match ← peek? with
  | some token => return tokens.contains token
  | none => return false

/-- A new node, under its anchor if it has one; an anchor names one node only. -/
def addNode (anchor : Option String) (node : Node) : Build NodeId := do
  let d ← get
  let id := d.graph.size
  match anchor with
  | none => set { d with graph := d.graph.push node }
  | some name =>
    if (d.anchors.lookup name).isSome then malformed
    set { d with graph := d.graph.push node, anchors := (name, id) :: d.anchors }
  return id

def setContent (id : NodeId) (content : Content) : Build Unit :=
  modify fun d => { d with graph := d.graph.setContent id content }

/-- The node that an empty place stands for. -/
def emptyNode : Build NodeId := addNode none ⟨.null, .scalar ""⟩

/-- The anchor and the tag before a node, in either order. -/
def properties : Build (Option String × Option (Option String × String)) := do
  match ← peek? with
  | some (.anchor name) =>
    skip
    match ← peek? with
    | some (.tag handle suffix) => skip; return (some name, some (handle, suffix))
    | _ => return (some name, none)
  | some (.tag handle suffix) =>
    skip
    match ← peek? with
    | some (.anchor name) => skip; return (some name, some (handle, suffix))
    | _ => return (none, some (handle, suffix))
  | _ => return (none, none)

/-- The type that a tag names; the tag `!` alone names none. -/
def resolveTag (tag : Option (Option String × String)) : Build (Option Tag) := do
  match tag with
  | none => return none
  | some (none, name) => return if name = "!" then none else some (.ofName name)
  | some (some handle, suffix) =>
    match (← get).handles.lookup handle with
    | some start => return some (.ofName (start ++ suffix))
    | none => malformed

/-- The type of a scalar. Without a tag it has the type of its form, but not when it is quoted. -/
def scalarTag (tag : Option Tag) (tagged plain : Bool) (text : String) : Tag :=
  match tag with
  | some tag => tag
  | none => if plain || tagged then .ofPlain text.toList else .text

mutual

/-- A node. `inBlock` tells whether it may be a block collection, and `indentless` whether it may be a
    sequence whose entries are indented no more than their mapping. -/
def node (inBlock indentless : Bool) : Nat → Build NodeId
  | 0 => malformed
  | n + 1 => do
    match ← peek? with
    | some (.alias name) =>
      skip
      match (← get).anchors.lookup name with
      | some id => return id
      | none => malformed
    | _ =>
      let (anchor, named) ← properties
      let tag ← resolveTag named
      let next ← peek?
      let collection (defaultTag : Tag) (content : Content) : Build NodeId :=
        addNode anchor ⟨tag.getD defaultTag, content⟩
      match next with
      | some (.scalar text plain) =>
        skip
        addNode anchor ⟨scalarTag tag named.isSome plain text, .scalar text⟩
      | some .flowSequenceStart =>
        let id ← collection .sequence (.sequence [])
        skip
        setContent id (.sequence (← flowItems true n))
        return id
      | some .flowMappingStart =>
        let id ← collection .mapping (.mapping [])
        skip
        setContent id (.mapping (← flowEntries true n))
        return id
      | token =>
        if indentless && token = some .blockEntry then
          let id ← collection .sequence (.sequence [])
          setContent id (.sequence (← blockItems true n))
          return id
        else if inBlock && token = some .blockSequenceStart then
          let id ← collection .sequence (.sequence [])
          skip
          setContent id (.sequence (← blockItems false n))
          return id
        else if inBlock && token = some .blockMappingStart then
          let id ← collection .mapping (.mapping [])
          skip
          setContent id (.mapping (← blockEntries n))
          return id
        else if anchor.isSome || named.isSome then
          addNode anchor ⟨scalarTag tag true true "", .scalar ""⟩
        else malformed

/-- The items of a block sequence, which a mark ends unless it is indentless. -/
def blockItems (indentless : Bool) : Nat → Build (List NodeId)
  | 0 => malformed
  | n + 1 => do
    if ← nextIn [.blockEntry] then
      skip
      let ends := if indentless then [.blockEntry, .key, .value, .blockEnd] else [.blockEntry, .blockEnd]
      let item ← if ← nextIn ends then emptyNode else node true false n
      return item :: (← blockItems indentless n)
    else
      unless indentless do expect .blockEnd
      return []

/-- The entries of a block mapping up to its end mark. -/
def blockEntries : Nat → Build (List (NodeId × NodeId))
  | 0 => malformed
  | n + 1 => do
    if ← nextIn [.key] then
      skip
      let key ← if ← nextIn [.key, .value, .blockEnd] then emptyNode else node true true n
      let value ←
        if ← nextIn [.value] then do
          skip
          if ← nextIn [.key, .value, .blockEnd] then emptyNode else node true true n
        else emptyNode
      return (key, value) :: (← blockEntries n)
    else
      expect .blockEnd
      return []

/-- The key and the value after a key mark in a flow collection with an end mark. -/
def flowEntry (endMark : Token) : Nat → Build (NodeId × NodeId)
  | 0 => malformed
  | n + 1 => do
    skip
    let key ← if ← nextIn [.value, .flowEntry, endMark] then emptyNode else node false false n
    let value ←
      if ← nextIn [.value] then do
        skip
        if ← nextIn [.flowEntry, endMark] then emptyNode else node false false n
      else emptyNode
    return (key, value)

/-- The items of a flow sequence up to its end mark; an entry with a key mark is a mapping of its own. -/
def flowItems (first : Bool) : Nat → Build (List NodeId)
  | 0 => malformed
  | n + 1 => do
    if ← nextIn [.flowSequenceEnd] then
      skip
      return []
    unless first do expect .flowEntry
    if ← nextIn [.key] then
      let id ← addNode none ⟨.mapping, .mapping []⟩
      setContent id (.mapping [← flowEntry .flowSequenceEnd n])
      return id :: (← flowItems false n)
    else if ← nextIn [.flowSequenceEnd] then
      skip
      return []
    else
      let item ← node false false n
      return item :: (← flowItems false n)

/-- The entries of a flow mapping up to its end mark; a node without a key mark is a key without a
    value. -/
def flowEntries (first : Bool) : Nat → Build (List (NodeId × NodeId))
  | 0 => malformed
  | n + 1 => do
    if ← nextIn [.flowMappingEnd] then
      skip
      return []
    unless first do expect .flowEntry
    if ← nextIn [.key] then
      let entry ← flowEntry .flowMappingEnd n
      return entry :: (← flowEntries false n)
    else if ← nextIn [.flowMappingEnd] then
      skip
      return []
    else
      let key ← node false false n
      let _ ← peek?
      let value ← emptyNode
      return (key, value) :: (← flowEntries false n)

end

/-! ### Documents -/

/-- The handles that need no directive. -/
def standardHandles : List (String × String) := [("!", "!"), ("!!", Tag.family)]

/-- The directives before a document: at most one version, which has to be 1, and one start for each
    handle. -/
def directives (versioned : Bool) (handles : List (String × String)) : Nat → Build (List (String × String))
  | 0 => malformed
  | n + 1 => do
    match ← peek? with
    | some (.directive d) =>
      skip
      match d with
      | .version major =>
        if versioned || major != 1 then malformed
        directives true handles n
      | .tag handle start =>
        if (handles.lookup handle).isSome then malformed
        directives versioned ((handle, start) :: handles) n
      | .other => directives versioned handles n
    | _ => return handles

/-- The start of a document by its mark. -/
def documentStart (n : Nat) : Build Unit := do
  let handles ← directives false [] n
  expect .documentStart
  modify fun d => { d with handles := handles ++ standardHandles }

/-- Whether the next token is a directive. -/
def atDirective : Build Bool := do
  match ← peek? with
  | some (.directive _) => return true
  | _ => return false

/-- Moves over marks that end a document. -/
def skipDocumentEnds : Nat → Build Unit
  | 0 => return
  | n + 1 => do
    if ← nextIn [.documentEnd] then
      skip
      skipDocumentEnds n

/-- Refuses a second document. -/
def endOfText (n : Nat) : Build Unit := do
  skipDocumentEnds n
  if (← peek?).isSome then
    documentStart n
    malformed

/-- The only document of a text, or none. -/
def document (n : Nat) : Build (Option NodeId) := do
  if (← peek?).isNone then return none
  let root ←
    if (← atDirective) || (← nextIn [.documentStart]) then do
      documentStart n
      if (← peek?).isNone || (← atDirective) || (← nextIn [.documentStart, .documentEnd]) then emptyNode
      else node true false n
    else node true false n
  if ← nextIn [.documentEnd] then skip
  endOfText n
  return some root

end Build

/-- A graph with the number of its first node; an empty text has none. -/
structure Rooted where
  graph : Graph
  root : Option NodeId
  deriving Repr

def Rooted.ofTokens (tokens : Tokens) : Except LoadError Rooted :=
  let draft : Draft :=
    { tokens := tokens.list, failure := tokens.failure, graph := #[], anchors := [], handles := Build.standardHandles }
  match Build.document (3 * tokens.list.length + 9) draft with
  | .ok (root, draft) => .ok ⟨draft.graph, root⟩
  | .error e => .error e

end LocaleLint.Yaml
