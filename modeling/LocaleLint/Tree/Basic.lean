import LocaleLint.Entries
import LocaleLint.Text.Order

/-! # Translation trees

A locale's translations: texts at the leaves, and mappings that give each of their entries a key. -/

namespace LocaleLint

/-- A translation tree. -/
inductive Tree where
  | leaf (text : String)
  | mapping (entries : List (String × Tree))
  deriving Repr, Inhabited

abbrev Mapping := Entries String Tree

/-- The keys by which a text is told apart by number. -/
def pluralizationKeys : List String := ["zero", "one", "two", "few", "many", "other"]

namespace Mapping

/-- The entries that pairs give: a repeated key keeps its first place and takes the last tree. -/
def ofPairs (pairs : List (String × Tree)) : Mapping := Entries.ofList (· == ·) pairs

/-- Whether a mapping owns a key by which texts are told apart by number. -/
def hasPluralizationKey (m : Mapping) : Bool := m.keys.any pluralizationKeys.contains

/-- The keys in the order of their characters' code points. -/
def sortedKeys (m : Mapping) : List String := Text.sorted m.keys

end Mapping

end LocaleLint
