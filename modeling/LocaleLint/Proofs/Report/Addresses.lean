import LocaleLint.Proofs.Report.Check
import LocaleLint.Proofs.Tree.Paths
import LocaleLint.Proofs.Tree.Segments

/-! # Reported keys as addresses

Where every key is a segment and no mapping has a key twice, a dotted key is the address of one node at most.
What a check reports for a rule are then the addresses of the nodes that violate it, each of them once. -/

namespace LocaleLint

open Rule LocaleLint.Tree

namespace Mapping

/-- A tree whose nodes are told by their dotted keys. -/
structure Addressable (tree : Mapping) : Prop where
  distinct : Distinct (.mapping tree)
  plain : ∀ node ∈ nodes (.mapping tree), ∀ key ∈ node.2.ownKeys, IsSegment key

/-- The node that the segments of a dotted key lead to from the root. -/
def lookUp (tree : Mapping) (key : String) : Option Tree := follow (segments key) (.mapping tree)

/-- Whether a dotted key leads to a node of the kind that a rule looks at, and the node violates the rule. -/
def OffendsAt (tree : Mapping) (rule : Rule) (key : String) : Prop :=
  (rule.OfMappings ∧ ∃ m, tree.lookUp key = some (.mapping m) ∧ MappingViolates rule key m) ∨
    (¬ rule.OfMappings ∧ ∃ text, tree.lookUp key = some (.leaf text) ∧
      LeafViolates rule key ((segments key).getLastD "") text)

/-- Whether keys are the addresses of the nodes of a tree that violate a rule. -/
structure Addresses (tree : Mapping) (rule : Rule) (keys : List String) : Prop where
  nodup : keys.Nodup
  mem_iff : ∀ key, key ∈ keys ↔ tree.OffendsAt rule key
  traced : ∀ key ∈ keys, ∃! node, node ∈ nodes (.mapping tree) ∧ Violates rule node ∧ dotted node.1 = key
  once : ∀ node ∈ nodes (.mapping tree), Violates rule node → keys.count (dotted node.1) = 1

section Addressable
variable {tree : Mapping} {rule : Rule} {key : String} {node other : List String × Tree}

theorem offendsAt_iff (reached : dotted (segments key) = key) : tree.OffendsAt rule key ↔
    ∃ n, tree.lookUp key = some n ∧ Violates rule (segments key, n) := by
  constructor
  · rintro (⟨-, m, hm, violates⟩ | ⟨-, text, htext, violates⟩)
    · exact ⟨_, hm, by rwa [Violates, reached]⟩
    · exact ⟨_, htext, by rwa [Violates, reached]⟩
  · rintro ⟨n, hn, violates⟩
    cases n with
    | mapping m =>
      rw [Violates, reached] at violates
      exact Or.inl ⟨ofMappings_of_mappingViolates violates, m, hn, violates⟩
    | leaf text =>
      rw [Violates, reached] at violates
      exact Or.inr ⟨not_ofMappings_of_leafViolates violates, text, hn, violates⟩

namespace Addressable
variable (h : tree.Addressable)
include h

theorem segments_of_mem (hnode : node ∈ nodes (.mapping tree)) : segments (dotted node.1) = node.1 :=
  segments_dotted (forall_path h.plain hnode)

/-- A dotted key leads to a node exactly if it is that of the path to the node. -/
theorem lookUp_eq_some_iff {n : Tree} :
    tree.lookUp key = some n ↔ (segments key, n) ∈ nodes (.mapping tree) ∧ dotted (segments key) = key := by
  rw [lookUp, follow_eq_some_iff h.distinct]
  refine ⟨fun hnode => ⟨hnode, dotted_segments fun segment hsegment => ?_⟩, And.left⟩
  exact (forall_path h.plain hnode segment hsegment).1

theorem eq_of_dotted (hnode : node ∈ nodes (.mapping tree)) (hother : other ∈ nodes (.mapping tree))
    (same : dotted node.1 = dotted other.1) : node = other := by
  have path : node.1 = other.1 := by
    rw [← h.segments_of_mem hnode, same, h.segments_of_mem hother]
  exact List.inj_on_of_nodup_map (nodup_paths _ h.distinct) hnode hother path

theorem nodup_violating (rule : Rule) : (tree.violating rule).Nodup := by
  have all : (nodes (.mapping tree)).Nodup := List.Nodup.of_map _ (nodup_paths _ h.distinct)
  refine (all.filter _).map_on fun n hn m hm same => ?_
  exact h.eq_of_dotted (List.mem_of_mem_filter hn) (List.mem_of_mem_filter hm) same

theorem mem_violating_iff : key ∈ tree.violating rule ↔ tree.OffendsAt rule key := by
  rw [mem_violating]
  constructor
  · rintro ⟨⟨path, n⟩, hnode, violates, rfl⟩
    have same : segments (dotted path) = path := h.segments_of_mem hnode
    have reached : dotted (segments (dotted path)) = dotted path := congrArg dotted same
    refine (offendsAt_iff reached).mpr ⟨n, h.lookUp_eq_some_iff.mpr ⟨?_, reached⟩, ?_⟩
    · rwa [same]
    · rwa [same]
  · intro offends
    have reached : dotted (segments key) = key := by
      rcases offends with ⟨-, m, hm, -⟩ | ⟨-, text, htext, -⟩
      · exact (h.lookUp_eq_some_iff.mp hm).2
      · exact (h.lookUp_eq_some_iff.mp htext).2
    obtain ⟨n, hn, violates⟩ := (offendsAt_iff reached).mp offends
    exact ⟨_, (h.lookUp_eq_some_iff.mp hn).1, violates, reached⟩

theorem addresses_violating (rule : Rule) : Addresses tree rule (tree.violating rule) where
  nodup := h.nodup_violating rule
  mem_iff key := h.mem_violating_iff
  traced key hkey := by
    obtain ⟨node, hnode, violates, rfl⟩ := mem_violating.mp hkey
    exact ⟨node, ⟨hnode, violates, rfl⟩, fun other hother => h.eq_of_dotted hother.1 hnode hother.2.2⟩
  once node hnode violates :=
    List.count_eq_one_of_mem (h.nodup_violating rule) (mem_violating.mpr ⟨node, hnode, violates, rfl⟩)

end Addressable

end Addressable

end Mapping

namespace Validator

/-- After a check of a tree whose nodes are told by their dotted keys, what is reported for each rule are the
    addresses of the nodes that violate it. -/
theorem check_addresses {ε : Type} (v : Validator) {tree : Mapping} (h : tree.Addressable) :
    ∃ checked, (v.check tree : Run ε Validator).result = .ok checked ∧ checked.errors.map (·.1) = Rule.all ∧
      ∀ entry ∈ checked.errors, tree.Addresses entry.1 entry.2 := by
  refine ⟨{ v with buckets := some (.ofTree tree) }, ?_, rfl, fun entry hentry => ?_⟩
  · rw [check_eq]
  · obtain ⟨rule, -, rfl⟩ := List.mem_map.mp hentry
    exact h.addresses_violating rule

/-- A tree with violations at its root, at a leaf and below a mapping. -/
def nested : Mapping := [("one", .leaf "1 ](/a"), ("x", .mapping [("few", .leaf "%\x7bcount\x7d")])]

theorem check_addresses_nested : nested.Addressable ∧
    ∃ checked, ((ofFilename "en.yml").check nested : Run ValidatorError Validator).result = .ok checked ∧
      (.pluralizationKeys, ["", "x"]) ∈ checked.errors ∧ nested.Addresses .pluralizationKeys ["", "x"] := by
  have addressable : nested.Addressable := ⟨by decide +kernel, by decide +kernel⟩
  obtain ⟨checked, result, -, addresses⟩ := @check_addresses ValidatorError (ofFilename "en.yml") nested addressable
  have member : (.pluralizationKeys, ["", "x"]) ∈ checked.errors := by
    have found : nested.violating .pluralizationKeys = ["", "x"] := by decide +kernel
    rw [check_eq] at result
    obtain rfl := Except.ok.inj result
    exact List.mem_map.mpr ⟨.pluralizationKeys, Rule.mem_all _, congrArg _ found⟩
  exact ⟨addressable, checked, result, member, addresses _ member⟩

end Validator

end LocaleLint
