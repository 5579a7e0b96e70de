import LocaleLint.Yaml.Tag

/-! # Node graphs

A document as nodes that refer to each other by number. An alias is one more reference to the node of
its anchor, so a node may be reached in several ways, and from itself. -/

namespace LocaleLint.Yaml

abbrev NodeId := Nat

inductive Content where
  | scalar (text : String)
  | sequence (items : List NodeId)
  | mapping (entries : List (NodeId × NodeId))
  deriving Repr, Inhabited

structure Node where
  tag : Tag
  content : Content
  deriving Repr, Inhabited

/-- Nodes by their numbers. -/
abbrev Graph := Array Node

namespace Graph

/-- The node of a number; a number that no node has refers to nothing. -/
def node (g : Graph) (id : NodeId) : Node := g.getD id ⟨.null, .scalar ""⟩

def setContent (g : Graph) (id : NodeId) (content : Content) : Graph := g.modify id ({ · with content })

def setTag (g : Graph) (id : NodeId) (tag : Tag) : Graph := g.modify id ({ · with tag })

end Graph

end LocaleLint.Yaml
