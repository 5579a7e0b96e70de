import LocaleLint.Proofs.Rule.Violation

/-! # What a check finds

After a check each bucket holds the dotted keys of the nodes that violate its rule, in the order of the
nodes. Every rule has hits in one of the two passes only, so that the order of the passes does not show. -/

namespace LocaleLint

open Rule LocaleLint.Tree

namespace Rule

/-- Whether a rule is one of the two that look at mappings; the others look at leaves. -/
def OfMappings : Rule → Prop
  | pluralizationKeys | oneKeys => True
  | _ => False

instance : DecidablePred OfMappings
  | pluralizationKeys | oneKeys => isTrue trivial
  | relativeLinks | relativeImageSources | interpolationFormat | messageFormatOne | missingPluralization =>
    isFalse id

theorem ofMappings_of_mappingViolates {rule : Rule} {key : String} {m : Mapping} (h : MappingViolates rule key m) :
    rule.OfMappings := by
  cases rule with
  | pluralizationKeys => trivial
  | oneKeys => trivial
  | _ => exact h

theorem not_ofMappings_of_leafViolates {rule : Rule} {key lastPart text : String}
    (h : LeafViolates rule key lastPart text) : ¬ rule.OfMappings := by
  cases rule with
  | pluralizationKeys => exact h.elim
  | oneKeys => exact h.elim
  | _ => exact id

end Rule

/-- The dotted keys of the nodes of a tree that violate a rule, in the order of the nodes. -/
def Mapping.violating (tree : Mapping) (rule : Rule) : List String :=
  ((nodes (.mapping tree)).filter fun node => Violates rule node).map fun node => dotted node.1

/-- Whether some node of a tree violates some rule. -/
def Mapping.HasViolation (tree : Mapping) : Prop := ∃ node ∈ nodes (.mapping tree), ∃ rule ∈ Rule.all, Violates rule node

instance : DecidablePred Mapping.HasViolation := fun tree =>
  inferInstanceAs (Decidable (∃ node ∈ nodes (.mapping tree), ∃ rule ∈ Rule.all, Violates rule node))

/-! ### Hits of one rule -/

section Hits
variable {α : Type} {rule : Rule}

@[simp] theorem hitKeys_nil : hitKeys [] rule = [] := rfl

theorem hitKeys_flatMap (f : α → List Hit) (l : List α) :
    hitKeys (l.flatMap f) rule = l.flatMap fun a => hitKeys (f a) rule := by
  simp only [hitKeys, List.filter_flatMap, List.map_flatMap]

theorem hitKeys_map {rules : List Rule} (nodup : rules.Nodup) (key : String) :
    hitKeys (rules.map fun r => (r, key)) rule = if rule ∈ rules then [key] else [] := by
  induction rules with
  | nil => rfl
  | cons r rest ih =>
    obtain ⟨hnew, hrest⟩ := List.nodup_cons.mp nodup
    have ih := ih hrest
    simp only [hitKeys, List.map_cons] at ih ⊢
    by_cases h : r = rule
    · subst h
      rw [if_neg hnew] at ih
      simp [ih]
    · simp [h, ih, Ne.symm h]

theorem flatMap_ite {β : Type} (p : α → Prop) [DecidablePred p] (f : α → List β) (l : List α) :
    (l.flatMap fun a => if p a then f a else []) = (l.filter p).flatMap f := by
  induction l with
  | nil => rfl
  | cons a rest ih => by_cases h : p a <;> simp [h, ih]

/-! ### Hits of one node -/

theorem hitKeys_pluralization (p : Pluralization) (own : p.mapping.hasPluralizationKey = true) :
    hitKeys p.hits rule = if MappingViolates rule p.key p.mapping then [p.key] else [] := by
  by_cases exempt : isExempt p.key = true
  · have : ¬ Governs p.key p.mapping := fun h => h.2 (isExempt_iff.mp exempt)
    rw [Pluralization.hits, if_pos exempt, if_neg (not_mappingViolates this)]
    rfl
  · have governs : Governs p.key p.mapping := ⟨hasPluralizationKey_iff.mp own, mt isExempt_iff.mpr exempt⟩
    rw [Pluralization.hits, if_neg exempt, hitKeys_map (nodup_ofMapping _)]
    simp only [mem_ofMapping governs]

theorem hitKeys_translation (t : Translation) :
    hitKeys t.hits rule = if LeafViolates rule t.key t.lastPart t.text then [t.key] else [] := by
  rw [Translation.hits, hitKeys_map (nodup_ofTranslation t)]
  simp only [mem_ofTranslation]

theorem hitKeys_pluralization? (node : List String × Tree) :
    hitKeys ((pluralization? "" node).toList.flatMap Pluralization.hits) rule =
      if rule.OfMappings ∧ Violates rule node then [dotted node.1] else [] := by
  obtain ⟨path, tree⟩ := node
  cases tree with
  | leaf text =>
    rw [if_neg fun h => not_ofMappings_of_leafViolates h.2 h.1]
    rfl
  | mapping m =>
    have violates : (rule.OfMappings ∧ Violates rule (path, .mapping m)) ↔ MappingViolates rule (dotted path) m :=
      ⟨And.right, fun h => ⟨ofMappings_of_mappingViolates h, h⟩⟩
    simp only [violates, pluralization?]
    by_cases own : Mapping.hasPluralizationKey m = true
    · rw [if_pos own, Option.toList_some, List.flatMap_singleton, hitKeys_pluralization _ own]
      rfl
    · have : ¬ Governs (dotted path) m := fun h => own (hasPluralizationKey_iff.mpr h.1)
      rw [if_neg own, if_neg (not_mappingViolates this)]
      rfl

theorem hitKeys_translation? (node : List String × Tree) :
    hitKeys ((translation? "" "" node).toList.flatMap Translation.hits) rule =
      if ¬ rule.OfMappings ∧ Violates rule node then [dotted node.1] else [] := by
  obtain ⟨path, tree⟩ := node
  cases tree with
  | mapping m =>
    rw [if_neg fun h => h.1 (ofMappings_of_mappingViolates h.2)]
    rfl
  | leaf text =>
    have violates : (¬ rule.OfMappings ∧ Violates rule (path, .leaf text)) ↔
        LeafViolates rule (dotted path) (path.getLastD "") text :=
      ⟨And.right, fun h => ⟨not_ofMappings_of_leafViolates h, h⟩⟩
    simp only [violates, translation?, Option.toList_some, List.flatMap_singleton, hitKeys_translation]
    rfl

end Hits

/-! ### Passes and checks -/

namespace Mapping
variable (tree : Mapping) (rule : Rule)

theorem hitKeys_pluralizationHits :
    hitKeys tree.pluralizationHits rule = if rule.OfMappings then tree.violating rule else [] := by
  rw [pluralizationHits, pluralizations_eq_filterMap, List.filterMap_eq_flatMap_toList, List.flatMap_assoc,
    hitKeys_flatMap]
  simp only [hitKeys_pluralization?]
  rw [flatMap_ite, ← List.map_eq_flatMap]
  by_cases h : rule.OfMappings
  · simp only [h, true_and, if_true, violating]
  · simp [h]

theorem hitKeys_contentHits :
    hitKeys tree.contentHits rule = if rule.OfMappings then [] else tree.violating rule := by
  rw [contentHits, translations_eq_filterMap, List.filterMap_eq_flatMap_toList, List.flatMap_assoc, hitKeys_flatMap]
  simp only [hitKeys_translation?]
  rw [flatMap_ite, ← List.map_eq_flatMap]
  by_cases h : rule.OfMappings
  · simp [h]
  · simp only [h, not_false_eq_true, true_and, if_false, violating]

theorem mem_violating {tree : Mapping} {rule : Rule} {key : String} :
    key ∈ tree.violating rule ↔ ∃ node ∈ nodes (.mapping tree), Violates rule node ∧ dotted node.1 = key := by
  simp only [violating, List.mem_map, List.mem_filter, decide_eq_true_eq, and_assoc]

end Mapping

namespace Buckets
variable (tree : Mapping)

/-- The buckets after a check of a tree. -/
def ofTree : Buckets := ⟨tree.violating⟩

theorem add_passes : (empty.add tree.pluralizationHits).add tree.contentHits = ofTree tree := by
  refine congrArg mk (funext fun rule => ?_)
  rw [keys_add, keys_empty, List.nil_append, tree.hitKeys_pluralizationHits, tree.hitKeys_contentHits]
  -- The rule has its hits in one of the passes and none in the other.
  by_cases h : rule.OfMappings
  · rw [if_pos h, if_pos h, List.append_nil]
  · rw [if_neg h, if_neg h, List.nil_append]

theorem hasErrors_ofTree : (ofTree tree).hasErrors = true ↔ tree.HasViolation := by
  simp only [hasErrors, toList, List.any_map, List.any_eq_true, Function.comp_apply, Bool.not_eq_true',
    List.isEmpty_eq_false_iff_exists_mem]
  constructor
  · rintro ⟨rule, -, key, hkey⟩
    obtain ⟨node, hnode, violates, -⟩ := Mapping.mem_violating.mp hkey
    exact ⟨node, hnode, rule, mem_all rule, violates⟩
  · rintro ⟨node, hnode, rule, -, violates⟩
    exact ⟨rule, mem_all rule, _, Mapping.mem_violating.mpr ⟨node, hnode, violates, rfl⟩⟩

end Buckets

namespace Validator
variable {ε : Type} (v : Validator) (tree : Mapping)

theorem check_eq : (v.check tree : Run ε Validator) =
    ⟨skipped (tree.pluralizations ""), .ok { v with buckets := some (.ofTree tree) }⟩ := by
  rw [check, Buckets.add_passes]

/-- After a check each rule has what violates it in its bucket. -/
theorem mem_errors_ofTree (rule : Rule) :
    (rule, tree.violating rule) ∈ ({ v with buckets := some (.ofTree tree) } : Validator).errors :=
  List.mem_map.mpr ⟨rule, mem_all rule, rfl⟩

/-- A check always ends, and whatever the validator held before, it holds afterwards for each rule the dotted
    keys of the nodes that violate it; there are errors exactly when some node violates some rule. -/
theorem check_holds_violating : ∃ checked, (v.check tree : Run ε Validator).result = .ok checked ∧
    checked.filename = v.filename ∧
    checked.errors = Rule.all.map (fun rule => (rule, tree.violating rule)) ∧
    (checked.hasErrors = true ↔ tree.HasViolation) := by
  rw [check_eq]
  exact ⟨_, rfl, rfl, rfl, Buckets.hasErrors_ofTree tree⟩

end Validator

end LocaleLint
