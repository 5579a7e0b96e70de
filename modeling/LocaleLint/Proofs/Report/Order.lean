import LocaleLint.Proofs.Report.Check
import LocaleLint.Proofs.Tree.Reordered

/-! # Reports and the order of keys

No rule looks at the order of entries, so a check finds the same violations in trees that differ in it. -/

namespace LocaleLint

open Entries Rule LocaleLint.Tree

namespace Rule
variable {rule : Rule} {key : String} {m n : Mapping} {tree other : Tree}

theorem holdsOne_iff_of_reordered (h : tree.Reordered other) : HoldsOne tree ↔ HoldsOne other := by
  cases h with
  | refl => rfl
  | mapping h => rfl

theorem governs_iff_of_shuffled (h : Shuffled Tree.Reordered m n) : Governs key m ↔ Governs key n := by
  have own : (∃ k ∈ m.keys, k ∈ LocaleLint.pluralizationKeys) ↔ ∃ k ∈ n.keys, k ∈ LocaleLint.pluralizationKeys :=
    exists_congr fun k => and_congr_left fun _ => h.keys_perm.mem_iff
  rw [Governs, own, Governs]

/-- Whether a mapping with distinct keys violates a rule does not depend on their order. -/
theorem mappingViolates_iff_of_shuffled (h : Shuffled Tree.Reordered m n) (distinct : m.keys.Nodup) :
    MappingViolates rule key m ↔ MappingViolates rule key n := by
  have english : m.keys.Perm englishKeys ↔ n.keys.Perm englishKeys :=
    ⟨h.keys_perm.symm.trans, h.keys_perm.trans⟩
  have one : (∃ one ∈ m.get? "one", HoldsOne one) ↔ ∃ one ∈ n.get? "one", HoldsOne one := by
    simp only [Option.mem_def, get?_eq_some_iff distinct, get?_eq_some_iff (h.keys_perm.nodup distinct)]
    exact h.exists_mem_iff (fun _ _ => holdsOne_iff_of_reordered) "one"
  cases rule with
  | pluralizationKeys => rw [MappingViolates, governs_iff_of_shuffled h, english, MappingViolates]
  | oneKeys => rw [MappingViolates, governs_iff_of_shuffled h, one, MappingViolates]
  | _ => rfl

theorem violates_iff_of_reordered (h : tree.Reordered other) (distinct : tree.ownKeys.Nodup) (path : List String) :
    Violates rule (path, tree) ↔ Violates rule (path, other) := by
  cases h with
  | refl => rfl
  | mapping h => exact mappingViolates_iff_of_shuffled h distinct

end Rule

/-- The violations of a rule in trees that differ in the order of entries are the same up to order. -/
theorem Mapping.violating_perm {tree other : Mapping} (h : Tree.Reordered (.mapping tree) (.mapping other))
    (distinct : Distinct (.mapping tree)) (rule : Rule) : (tree.violating rule).Perm (other.violating rule) := by
  have keeps : ∀ node n : Tree, node.Reordered n → node.ownKeys.Nodup → n.ownKeys.Nodup :=
    fun _ _ related nodup => related.ownKeys_perm.nodup nodup
  have paths : (keys ((nodes (.mapping tree)).filter fun node => Violates rule node)).Perm
      (keys ((nodes (.mapping other)).filter fun node => Violates rule node)) :=
    h.nodes.filter_keys_perm keeps
      (fun path _ _ related nodup => decide_eq_decide.mpr (violates_iff_of_reordered related nodup path)) distinct
  have dottedKeys := paths.map dotted
  rw [keys, keys, List.map_map, List.map_map] at dottedKeys
  exact dottedKeys

theorem Buckets.hasErrors_eq_of_perm {tree other : Mapping} (h : ∀ rule, (tree.violating rule).Perm (other.violating rule)) :
    (ofTree tree).hasErrors = (ofTree other).hasErrors := by
  have same : ∀ rule, (tree.violating rule).isEmpty = (other.violating rule).isEmpty := fun rule => (h rule).isEmpty_eq
  simp only [hasErrors, toList, ofTree, List.any_map, Function.comp_def, same]

namespace Validator

/-- Whether two lists of rules with their keys differ in the order of keys only. -/
def SameKeys (errors others : List (Rule × List String)) : Prop :=
  List.Forall₂ (fun e f => e.1 = f.1 ∧ e.2.Perm f.2) errors others

theorem sameKeys_map {tree other : Mapping} (h : ∀ rule, (tree.violating rule).Perm (other.violating rule)) (rules : List Rule) :
    SameKeys (rules.map fun rule => (rule, tree.violating rule)) (rules.map fun rule => (rule, other.violating rule)) := by
  induction rules with
  | nil => exact .nil
  | cons rule rest ih => exact .cons ⟨rfl, h rule⟩ ih

theorem exists_build_of_reordered {entries others : List (Value × Value)} {parent : String} {tree : Mapping}
    (h : Value.Reordered (.mapping entries) (.mapping others)) (built : build entries parent = .ok tree) :
    ∃ other, build others parent = .ok other ∧ Tree.Reordered (.mapping tree) (.mapping other) := by
  obtain ⟨other, builds, reordered⟩ := h.builds (build_eq_ok_iff.mp built)
  cases builds with
  | leaf noMapping text => exact absurd rfl (noMapping _)
  | mapping each distinct => exact ⟨_, build_eq_ok_iff.mpr (.mapping each distinct), reordered⟩

/-- Of two loaded mappings that differ in the order of entries either both become trees or none does, and checks of
    the trees find the same violations. -/
theorem check_reordered {ε : Type} (v : Validator) (parent : String) {entries others : List (Value × Value)}
    (h : Value.Reordered (.mapping entries) (.mapping others)) :
    ((∃ tree, build entries parent = .ok tree) ↔ ∃ other, build others parent = .ok other) ∧
    ∀ tree other, build entries parent = .ok tree → build others parent = .ok other →
      ∃ checked checkedOther, (v.check tree : Run ε Validator).result = .ok checked ∧
        (v.check other : Run ε Validator).result = .ok checkedOther ∧ checked.hasErrors = checkedOther.hasErrors ∧
        SameKeys checked.errors checkedOther.errors := by
  refine ⟨⟨?_, ?_⟩, fun tree other built builtOther => ?_⟩
  · rintro ⟨tree, built⟩
    obtain ⟨other, builtOther, -⟩ := exists_build_of_reordered h built
    exact ⟨other, builtOther⟩
  · rintro ⟨other, builtOther⟩
    obtain ⟨tree, built, -⟩ := exists_build_of_reordered h.symm builtOther
    exact ⟨tree, built⟩
  · obtain ⟨_, same, reordered⟩ := exists_build_of_reordered h built
    obtain rfl := Except.ok.inj (same.symm.trans builtOther)
    have violations := Mapping.violating_perm reordered (distinct_of_builds (build_eq_ok_iff.mp built))
    rw [check_eq, check_eq]
    exact ⟨_, _, rfl, rfl, Buckets.hasErrors_eq_of_perm violations, sameKeys_map violations Rule.all⟩

/-- A loaded mapping with violations at two levels, and one with the entries of both levels in another order. -/
def inOrder : List (Value × Value) :=
  [(.text "a", .mapping [(.text "one", .text "1"), (.int 1, .null)]), (.text "b", .text "](/c")]

def outOfOrder : List (Value × Value) :=
  [(.text "b", .text "](/c"), (.text "a", .mapping [(.int 1, .null), (.text "one", .text "1")])]

theorem check_reordered_outOfOrder : Value.Reordered (.mapping inOrder) (.mapping outOfOrder) ∧
    ∃ tree other, build inOrder "" = .ok tree ∧ build outOfOrder "" = .ok other ∧
      ∃ checked checkedOther, ((ofFilename "en.yml").check tree : Run ValidatorError Validator).result = .ok checked ∧
        ((ofFilename "en.yml").check other : Run ValidatorError Validator).result = .ok checkedOther ∧
        checked.hasErrors = checkedOther.hasErrors ∧ SameKeys checked.errors checkedOther.errors := by
  have reordered : Value.Reordered (.mapping inOrder) (.mapping outOfOrder) :=
    .mapping (.trans (.cons (.mapping (.swap _ _ [])) (.cons (.refl _) .nil)) (.swap _ _ []))
  have both := check_reordered (ε := ValidatorError) (ofFilename "en.yml") "" reordered
  have built : build inOrder "" = .ok [("a", .mapping [("one", .leaf "1"), ("1", .leaf "")]), ("b", .leaf "](/c")] := by
    rfl
  obtain ⟨other, builtOther⟩ := both.1.mp ⟨_, built⟩
  exact ⟨reordered, _, other, built, builtOther, both.2 _ other built builtOther⟩

end Validator

end LocaleLint
