import LocaleLint.Tree.Basic
import LocaleLint.Tree.Key

/-! # Walking a tree

Trees are walked depth first, entries in their order and a mapping before what is below it. The two
walks of the linter collect the leaves, and the mappings that tell texts apart by number. Beside them
stands the list of all nodes with their paths. -/

namespace LocaleLint

/-- A leaf with its dotted key and the last part of that. -/
structure Translation where
  key : String
  text : String
  lastPart : String
  deriving DecidableEq, Repr

/-- A mapping that tells texts apart by number, with its dotted key. -/
structure Pluralization where
  key : String
  mapping : Mapping
  deriving Repr

namespace Tree

mutual

/-- The leaves of the tree at a dotted key, which ends in `lastPart`. -/
def translations (key lastPart : String) : Tree → List Translation
  | .leaf text => [⟨key, text, lastPart⟩]
  | .mapping entries => translationsBelow key entries

/-- The leaves below a dotted key. -/
def translationsBelow (parent : String) : List (String × Tree) → List Translation
  | [] => []
  | (key, tree) :: rest => translations (joinKey parent key) key tree ++ translationsBelow parent rest

end

mutual

/-- The mappings with a pluralization key in the tree at a dotted key. -/
def pluralizations (key : String) : Tree → List Pluralization
  | .leaf _ => []
  | .mapping entries =>
    (if Mapping.hasPluralizationKey entries then [⟨key, entries⟩] else []) ++ pluralizationsBelow key entries

/-- The mappings with a pluralization key below a dotted key. -/
def pluralizationsBelow (parent : String) : List (String × Tree) → List Pluralization
  | [] => []
  | (key, tree) :: rest => pluralizations (joinKey parent key) tree ++ pluralizationsBelow parent rest

end

mutual

/-- The nodes of a tree with the paths to them, the tree itself first. -/
def nodes : Tree → List (List String × Tree)
  | .leaf text => [([], .leaf text)]
  | .mapping entries => ([], .mapping entries) :: nodesBelow entries

/-- The nodes of entries with the paths to them. -/
def nodesBelow : List (String × Tree) → List (List String × Tree)
  | [] => []
  | (key, tree) :: rest => (nodes tree).map (fun node => (key :: node.1, node.2)) ++ nodesBelow rest

end

end Tree

namespace Mapping

/-- The leaves of a mapping that stands at a dotted key. -/
def translations (m : Mapping) (parent : String) : List Translation := Tree.translationsBelow parent m

/-- The mappings with a pluralization key in a mapping that stands at a dotted key, itself included. -/
def pluralizations (m : Mapping) (parent : String) : List Pluralization := Tree.pluralizations parent (.mapping m)

end Mapping

end LocaleLint
