import Mathlib.Data.List.Infix
import LocaleLint.Proofs.Tree.Nodes
import LocaleLint.Report.Validator

/-! # Violations by nodes

When a single node of a tree violates a rule, told by its path and by what stands there. The
rules that the linter finds at one node are those. -/

namespace LocaleLint

open Text

/-! ### The rules -/

namespace Rule

/-- Whether a leaf holds a 1 and interpolates the count in neither way. -/
def HoldsOne : Tree → Prop
  | .leaf text =>
    '1' ∈ text.toList ∧ ¬ countInterpolation <:+: text.toList ∧ ¬ doubleBracedCount <:+: text.toList
  | .mapping _ => False

/-- Whether the rules for mappings look at the mapping at a dotted key: it owns a pluralization key, and the
    dotted key does not hold the exempt part. -/
def Governs (key : String) (m : Mapping) : Prop :=
  (∃ k ∈ m.keys, k ∈ LocaleLint.pluralizationKeys) ∧ ¬ exemptPart.toList <:+: key.toList

/-- Whether the mapping at a dotted key violates a rule for mappings. -/
def MappingViolates (rule : Rule) (key : String) (m : Mapping) : Prop :=
  match rule with
  | pluralizationKeys => Governs key m ∧ ¬ m.keys.Perm englishKeys
  | oneKeys => Governs key m ∧ ∃ one ∈ m.get? "one", HoldsOne one
  | _ => False

/-- Whether the leaf at a dotted key with a last part violates a rule for leaves. -/
def LeafViolates (rule : Rule) (key lastPart text : String) : Prop :=
  match rule with
  | relativeLinks => hasRelativeLink text.toList
  | relativeImageSources => hasRelativeImageSource text.toList
  | interpolationFormat => hasDoubleBraces text.toList ∧ ¬ messageFormatEnd.toList <:+ key.toList
  | messageFormatOne => messageFormatEnd.toList <:+ key.toList ∧ hasNumberedOneClause text.toList
  | missingPluralization =>
    countInterpolation <:+: text.toList ∧ lastPart ∉ englishKeys ∧
      ∀ start ∈ countAllowed, ¬ start.toList <+: key.toList
  | _ => False

/-- Whether the node at a path violates a rule. -/
def Violates (rule : Rule) (node : List String × Tree) : Prop :=
  match node.2 with
  | .mapping m => MappingViolates rule (dotted node.1) m
  | .leaf text => LeafViolates rule (dotted node.1) (node.1.getLastD "") text

instance : DecidablePred HoldsOne
  | .leaf _ => inferInstanceAs (Decidable (_ ∧ ¬ _ ∧ ¬ _))
  | .mapping _ => inferInstanceAs (Decidable False)

instance (key : String) (m : Mapping) : Decidable (Governs key m) := inferInstanceAs (Decidable (_ ∧ ¬ _))

instance (rule : Rule) (key : String) (m : Mapping) : Decidable (MappingViolates rule key m) :=
  match rule with
  | pluralizationKeys => inferInstanceAs (Decidable (Governs key m ∧ ¬ m.keys.Perm englishKeys))
  | oneKeys => inferInstanceAs (Decidable (Governs key m ∧ ∃ one ∈ m.get? "one", HoldsOne one))
  | relativeLinks | relativeImageSources | interpolationFormat | messageFormatOne | missingPluralization =>
    inferInstanceAs (Decidable False)

instance (rule : Rule) (key lastPart text : String) : Decidable (LeafViolates rule key lastPart text) :=
  match rule with
  | pluralizationKeys | oneKeys => inferInstanceAs (Decidable False)
  | relativeLinks | relativeImageSources => inferInstanceAs (Decidable (_ = true))
  | interpolationFormat => inferInstanceAs (Decidable (_ ∧ ¬ _))
  | messageFormatOne => inferInstanceAs (Decidable (_ ∧ _))
  | missingPluralization => inferInstanceAs (Decidable (_ ∧ _ ∧ _))

instance (rule : Rule) : DecidablePred (Violates rule)
  | (_, .mapping _) => inferInstanceAs (Decidable (MappingViolates ..))
  | (_, .leaf _) => inferInstanceAs (Decidable (LeafViolates ..))

/-! ### The rules as they are computed -/

theorem sortedKeys_eq_iff {m : Mapping} : m.sortedKeys = englishKeys ↔ m.keys.Perm englishKeys := by
  constructor
  · intro h
    rw [← h]
    exact (sorted_perm m.keys).symm
  · intro h
    refine ((sorted_perm m.keys).trans h).eq_of_pairwise (fun a b _ _ => String.le_antisymm) (pairwise_sorted m.keys) ?_
    decide

theorem hasPluralizationKey_iff {m : Mapping} :
    m.hasPluralizationKey = true ↔ ∃ k ∈ m.keys, k ∈ LocaleLint.pluralizationKeys := by
  simp only [Mapping.hasPluralizationKey, List.any_eq_true, List.contains_iff_mem]

theorem isExempt_iff {key : String} : isExempt key = true ↔ exemptPart.toList <:+: key.toList := occursIn_eq_true_iff

theorem interpolatesCount_iff {s : List Char} :
    interpolatesCount s = true ↔ countInterpolation <:+: s ∨ doubleBracedCount <:+: s := by
  simp only [interpolatesCount, Bool.or_eq_true, occursIn_eq_true_iff]

theorem isNumberedOne_iff {tree : Tree} : isNumberedOne tree = true ↔ HoldsOne tree := by
  cases tree with
  | leaf text =>
    simp only [isNumberedOne, HoldsOne, Bool.and_eq_true, Bool.not_eq_true', ← Bool.not_eq_true,
      interpolatesCount_iff, not_or, List.contains_iff_mem]
  | mapping m => simp only [isNumberedOne, HoldsOne, Bool.false_eq_true]

theorem mem_ofMapping {rule : Rule} {key : String} {m : Mapping} (h : Governs key m) :
    rule ∈ ofMapping m ↔ MappingViolates rule key m := by
  have keys : (m.sortedKeys != englishKeys) = true ↔ ¬ m.keys.Perm englishKeys := by
    rw [bne_iff_ne, ne_eq, sortedKeys_eq_iff]
  have one : (m.get? "one").any isNumberedOne = true ↔ ∃ one ∈ m.get? "one", HoldsOne one := by
    simp only [Option.any_eq_true, isNumberedOne_iff, Option.mem_def]
  cases rule <;> simp [ofMapping, MappingViolates, h, keys, one]

theorem not_mappingViolates {rule : Rule} {key : String} {m : Mapping} (h : ¬ Governs key m) :
    ¬ MappingViolates rule key m := by
  cases rule <;> simp [MappingViolates, h]

theorem mem_ofTranslation {rule : Rule} {t : Translation} :
    rule ∈ ofTranslation t ↔ LeafViolates rule t.key t.lastPart t.text := by
  have format : isMessageFormat t.key = true ↔ messageFormatEnd.toList <:+ t.key.toList := List.isSuffixOf_iff_suffix
  have allowed : allowsCount t.key = true ↔ ∃ start ∈ countAllowed, start.toList <+: t.key.toList := by
    simp only [allowsCount, List.any_eq_true, List.isPrefixOf_iff_prefix]
  have count : occursIn countInterpolation t.text.toList = true ↔ countInterpolation <:+: t.text.toList :=
    occursIn_eq_true_iff
  cases rule <;> simp [ofTranslation, LeafViolates, format, allowed, count, and_assoc, ← Bool.not_eq_true]

/-! ### The hits of a node -/

theorem ite_singleton_sublist (p : Prop) [Decidable p] (rule : Rule) : (if p then [rule] else []).Sublist [rule] := by
  split
  · exact List.Sublist.refl _
  · exact List.nil_sublist _

theorem nodup_ofMapping (m : Mapping) : (ofMapping m).Nodup :=
  ((ite_singleton_sublist ..).append (ite_singleton_sublist ..)).nodup (by decide)

theorem nodup_ofTranslation (t : Translation) : (ofTranslation t).Nodup :=
  (((((ite_singleton_sublist ..).append (ite_singleton_sublist ..)).append (ite_singleton_sublist ..)).append
    (ite_singleton_sublist ..)).append (ite_singleton_sublist ..)).nodup (by decide)

end Rule

end LocaleLint
