import LocaleLint.Proofs.Report.Check
import LocaleLint.Proofs.Tree.Paths

/-! # Counts in a tree without violations

The pass over leaves lets a text interpolate the count if its last key is one of the English keys, and leaves it
to the pass over mappings to look at the mapping around it. That pass comes to every such mapping, since each
English key is a pluralization key; so no text interpolates the count outside a mapping that tells texts apart by
number, unless its dotted key allows it. -/

namespace LocaleLint

open Rule LocaleLint.Tree

namespace Mapping

/-- A leaf that is told apart by number: the mapping around it has its text under an English key, the walk over
    mappings comes to it, and it is exempt or has the English keys only. -/
structure ToldApart (tree : Mapping) (path : List String) (text : String) (parent : List String) (last : String)
    (around : Mapping) : Prop where
  split : path = parent ++ [last]
  english : last ∈ englishKeys
  node : (parent, .mapping around) ∈ nodes (.mapping tree)
  entry : (last, .leaf text) ∈ around
  walked : ⟨dotted parent, around⟩ ∈ tree.pluralizations ""
  keys : exemptPart.toList <:+: (dotted parent).toList ∨ around.keys.Perm englishKeys

/-- How a tree may interpolate the count. -/
structure CountsFit (tree : Mapping) : Prop where
  /-- A text that interpolates the count is allowed to by its dotted key, or it is told apart by number. -/
  leaves : ∀ path text, (path, .leaf text) ∈ nodes (.mapping tree) → countInterpolation <:+: text.toList →
    (∃ start ∈ countAllowed, start.toList <+: (dotted path).toList) ∨
      ∃ parent last around, tree.ToldApart path text parent last around
  /-- A mapping with a pluralization key that is not exempt has the English keys only, -/
  keys : ∀ path m, (path, .mapping m) ∈ nodes (.mapping tree) → (∃ k ∈ Entries.keys m, k ∈ LocaleLint.pluralizationKeys) →
    ¬ exemptPart.toList <:+: (dotted path).toList → (Entries.keys m).Perm englishKeys
  /-- and a text for one that holds a 1 interpolates the count. -/
  one : ∀ path m, (path, .mapping m) ∈ nodes (.mapping tree) → (∃ k ∈ Entries.keys m, k ∈ LocaleLint.pluralizationKeys) →
    ¬ exemptPart.toList <:+: (dotted path).toList → ∀ text, Entries.get? m "one" = some (.leaf text) →
      '1' ∈ text.toList → countInterpolation <:+: text.toList ∨ doubleBracedCount <:+: text.toList

section Clean
variable {tree m : Mapping} {path : List String}

theorem mem_pluralizationKeys_of_english {key : String} (h : key ∈ englishKeys) : key ∈ LocaleLint.pluralizationKeys :=
  (by decide : ∀ k ∈ englishKeys, k ∈ LocaleLint.pluralizationKeys) key h

/-- The walk over mappings comes to every mapping with a pluralization key. -/
theorem mem_pluralizations (h : (path, .mapping m) ∈ nodes (.mapping tree))
    (own : ∃ k ∈ m.keys, k ∈ LocaleLint.pluralizationKeys) : ⟨dotted path, m⟩ ∈ tree.pluralizations "" := by
  rw [pluralizations_eq_filterMap, List.mem_filterMap]
  exact ⟨(path, .mapping m), h, if_pos (hasPluralizationKey_iff.mpr own)⟩

section
variable (clean : ¬ tree.HasViolation)
include clean

theorem not_violates {node : List String × Tree} (h : node ∈ nodes (.mapping tree)) (rule : Rule) : ¬ Violates rule node :=
  fun violates => clean ⟨node, h, rule, mem_all rule, violates⟩

theorem keys_of_clean (h : (path, .mapping m) ∈ nodes (.mapping tree)) (governs : Governs (dotted path) m) :
    m.keys.Perm englishKeys := by
  have kept : ¬ (Governs (dotted path) m ∧ ¬ m.keys.Perm englishKeys) := not_violates clean h .pluralizationKeys
  exact Classical.not_not.mp (not_and.mp kept governs)

/-- The mapping around a leaf under an English key is exempt or has the English keys only. -/
theorem toldApart_of_clean {text : String} {parent : List String} {last : String}
    (h : (parent ++ [last], .leaf text) ∈ nodes (.mapping tree)) (english : last ∈ englishKeys) :
    ∃ around, tree.ToldApart (parent ++ [last]) text parent last around := by
  obtain ⟨around, node, entry⟩ := concat_mem_nodes.mp h
  have own : ∃ k ∈ Entries.keys around, k ∈ LocaleLint.pluralizationKeys :=
    ⟨last, key_mem_ownKeys entry, mem_pluralizationKeys_of_english english⟩
  refine ⟨around, rfl, english, node, entry, mem_pluralizations node own, ?_⟩
  by_cases exempt : exemptPart.toList <:+: (dotted parent).toList
  · exact Or.inl exempt
  · exact Or.inr (keys_of_clean clean node ⟨own, exempt⟩)

theorem countsFit_of_clean : tree.CountsFit where
  leaves path text h count := by
    have kept : ¬ (countInterpolation <:+: text.toList ∧ path.getLastD "" ∉ englishKeys ∧
        ∀ start ∈ countAllowed, ¬ start.toList <+: (dotted path).toList) := not_violates clean h missingPluralization
    by_cases allowed : ∃ start ∈ countAllowed, start.toList <+: (dotted path).toList
    · exact Or.inl allowed
    · right
      have english : path.getLastD "" ∈ englishKeys := by
        refine Classical.not_not.mp fun other => kept ⟨count, other, fun start hstart starts => ?_⟩
        exact allowed ⟨start, hstart, starts⟩
      rcases List.eq_nil_or_concat path with rfl | ⟨parent, last, rfl⟩
      · cases nil_mem_nodes.mp h
      · rw [List.concat_eq_append] at h english ⊢
        rw [List.getLastD_concat] at english
        obtain ⟨around, told⟩ := toldApart_of_clean clean h english
        exact ⟨parent, last, around, told⟩
  keys path m h own plain := keys_of_clean clean h ⟨own, plain⟩
  one path m h own plain text htext holdsOne := by
    have kept : ¬ (Governs (dotted path) m ∧ ∃ one ∈ m.get? "one", HoldsOne one) := not_violates clean h oneKeys
    have interpolated : ¬ HoldsOne (.leaf text) := fun holds => kept ⟨⟨own, plain⟩, _, htext, holds⟩
    by_contra neither
    exact interpolated ⟨holdsOne, fun count => neither (Or.inl count), fun braced => neither (Or.inr braced)⟩

end

end Clean

end Mapping

namespace Validator

/-- A tree in which a check finds no violation interpolates the count in the allowed places only. -/
theorem countsFit_of_check {ε : Type} {v : Validator} {tree : Mapping}
    (h : (v.check tree : Run ε Validator).result.map hasErrors = .ok false) : tree.CountsFit := by
  rw [check_eq] at h
  have none : (Buckets.ofTree tree).hasErrors = false := Except.ok.inj h
  refine Mapping.countsFit_of_clean fun violation => ?_
  rw [(Buckets.hasErrors_ofTree tree).mpr violation] at none
  cases none

/-- A tree with counts that are told apart, one that is allowed, and one in an exempt mapping. -/
def pluralized : Mapping :=
  [("items", .mapping [("one", .leaf "%\x7bcount\x7d item"), ("other", .leaf "%\x7bcount\x7d items")]),
    ("errors", .mapping [("messages", .mapping [("short", .leaf "%\x7bcount\x7d missing")])]),
    ("messages", .mapping [("restrict_dependent_destroy", .mapping [("one", .leaf "%\x7bcount\x7d"), ("many", .leaf "1")])])]

theorem countsFit_pluralized :
    ((ofFilename "en.yml").check pluralized : Run ValidatorError Validator).result.map hasErrors = .ok false ∧
      pluralized.CountsFit := by
  have clean : ((ofFilename "en.yml").check pluralized : Run ValidatorError Validator).result.map hasErrors = .ok false := by
    have none : (Buckets.ofTree pluralized).hasErrors = false := by decide +kernel
    rw [check_eq]
    exact congrArg Except.ok none
  exact ⟨clean, countsFit_of_check clean⟩

end Validator

end LocaleLint
