import LocaleLint.Tree.Walk

/-! # Walks and nodes

Both walks of the linter read off the list of all nodes: the one keeps the leaves, the other the mappings
that tell texts apart by number, and each gives the nodes that it keeps their dotted keys. -/

namespace LocaleLint.Tree

/-- What the walk over leaves has of a node below a dotted key, which ends in `lastPart`. -/
def translation? (key lastPart : String) (node : List String × Tree) : Option Translation :=
  match node.2 with
  | .leaf text => some ⟨dottedFrom key node.1, text, node.1.getLastD lastPart⟩
  | .mapping _ => none

/-- What the walk over mappings has of a node below a dotted key. -/
def pluralization? (key : String) (node : List String × Tree) : Option Pluralization :=
  match node.2 with
  | .leaf _ => none
  | .mapping m => if Mapping.hasPluralizationKey m then some ⟨dottedFrom key node.1, m⟩ else none

theorem translation?_below (parent lastPart key : String) (node : List String × Tree) :
    translation? parent lastPart (key :: node.1, node.2) = translation? (joinKey parent key) key node := by
  obtain ⟨path, tree⟩ := node
  cases tree with
  | leaf text => simp only [translation?, dottedFrom_cons, List.getLastD_cons]
  | mapping m => rfl

theorem pluralization?_below (parent key : String) (node : List String × Tree) :
    pluralization? parent (key :: node.1, node.2) = pluralization? (joinKey parent key) node := by
  obtain ⟨path, tree⟩ := node
  cases tree with
  | leaf text => rfl
  | mapping m => simp only [pluralization?, dottedFrom_cons]

mutual

/-- The walk over leaves is the list of nodes without the mappings. -/
theorem translations_eq (key lastPart : String) (tree : Tree) :
    translations key lastPart tree = (nodes tree).filterMap (translation? key lastPart) := by
  match tree with
  | .leaf text => rfl
  | .mapping entries =>
    rw [translations, nodes, List.filterMap_cons_none rfl]
    exact translationsBelow_eq key lastPart entries

theorem translationsBelow_eq (parent lastPart : String) (entries : List (String × Tree)) :
    translationsBelow parent entries = (nodesBelow entries).filterMap (translation? parent lastPart) := by
  match entries with
  | [] => rfl
  | (key, tree) :: rest =>
    have below : (translation? parent lastPart ∘ fun node => (key :: node.1, node.2)) =
        translation? (joinKey parent key) key := funext (translation?_below parent lastPart key)
    rw [translationsBelow, nodesBelow, List.filterMap_append, List.filterMap_map, below, translations_eq _ key tree,
      translationsBelow_eq parent lastPart rest]

end

mutual

/-- The walk over mappings is the list of nodes without the leaves and the mappings of other keys. -/
theorem pluralizations_eq (key : String) (tree : Tree) :
    pluralizations key tree = (nodes tree).filterMap (pluralization? key) := by
  match tree with
  | .leaf text => rfl
  | .mapping entries =>
    rw [pluralizations, nodes, pluralizationsBelow_eq key entries, List.filterMap_cons]
    by_cases h : Mapping.hasPluralizationKey entries
    · simp only [pluralization?, h, if_true]
      rfl
    · simp only [pluralization?, h]
      rfl

theorem pluralizationsBelow_eq (parent : String) (entries : List (String × Tree)) :
    pluralizationsBelow parent entries = (nodesBelow entries).filterMap (pluralization? parent) := by
  match entries with
  | [] => rfl
  | (key, tree) :: rest =>
    have below : (pluralization? parent ∘ fun node => (key :: node.1, node.2)) =
        pluralization? (joinKey parent key) := funext (pluralization?_below parent key)
    rw [pluralizationsBelow, nodesBelow, List.filterMap_append, List.filterMap_map, below, pluralizations_eq _ tree,
      pluralizationsBelow_eq parent rest]

end

end LocaleLint.Tree

namespace LocaleLint.Mapping
variable (tree : Mapping) (parent : String)

open LocaleLint.Tree

theorem translations_eq_filterMap :
    tree.translations parent = (nodes (.mapping tree)).filterMap (translation? parent "") := by
  rw [← translations_eq]
  rfl

theorem pluralizations_eq_filterMap :
    tree.pluralizations parent = (nodes (.mapping tree)).filterMap (pluralization? parent) :=
  pluralizations_eq parent (.mapping tree)

end LocaleLint.Mapping
