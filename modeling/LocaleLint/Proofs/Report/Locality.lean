import LocaleLint.Proofs.Report.Check
import LocaleLint.Proofs.Tree.Edited

/-! # Reports and the text of one leaf

A rule for leaves looks at one leaf, and the rules for mappings look at the keys of a mapping and at its text for
one. Another text for a leaf therefore changes what is found at that leaf, or at the mapping right above a text for
one, and nothing else in any bucket. -/

namespace LocaleLint

open Rule LocaleLint.Tree

/-- The mapping with another text at the leaf to which a path leads. -/
def Mapping.withText (tree : Mapping) (path : List String) (text : String) : Mapping :=
  match path with
  | [] => tree
  | key :: rest => Entries.adjust tree key (Tree.withText text rest)

theorem Tree.withText_mapping (tree : Mapping) (path : List String) (text : String) :
    Tree.withText text path (.mapping tree) = .mapping (tree.withText path text) := by
  cases path <;> rfl

theorem Entries.get?_entry {α : Type} (before after : Entries String α) (key k : String) (value : α) :
    get? (before ++ (key, value) :: after) k = (get? before k).or (if key = k then some value else get? after k) := by
  rw [get?, List.find?_append, get?, get?]
  cases before.find? (·.1 == k) with
  | some entry => rfl
  | none => by_cases h : key = k <;> simp [h]

namespace Rule

/-- Whether two lists of keys are the same but for one place, where each has a given key or nothing. -/
def DiffersAt (key : String) (keys others : List String) : Prop :=
  ∃ before here there after, (here = [] ∨ here = [key]) ∧ (there = [] ∨ there = [key]) ∧
    keys = before ++ here ++ after ∧ others = before ++ there ++ after

/-- How the keys found for a rule may change with the text of the leaf that a mapping has under its key. -/
def ChangesAt (rule : Rule) (parent : List String) (last : String) (keys others : List String) : Prop :=
  match rule with
  | pluralizationKeys => keys = others
  | oneKeys => if last = "one" then DiffersAt (dotted parent) keys others else keys = others
  | _ => DiffersAt (dotted (parent ++ [last])) keys others

/-- What is found for a rule at a node. -/
def foundAt (rule : Rule) (node : List String × Tree) : List String :=
  if Violates rule node then [dotted node.1] else []

section Found
variable {rule : Rule} {old new key place : String} {path way : List String} {n m : Tree}

theorem foundAt_cases (rule : Rule) (node : List String × Tree) :
    foundAt rule node = [] ∨ foundAt rule node = [dotted node.1] := by
  by_cases h : Violates rule node
  · exact Or.inr (if_pos h)
  · exact Or.inl (if_neg h)

theorem foundAt_congr (h : Violates rule (way, n) ↔ Violates rule (way, m)) :
    foundAt rule (way, n) = foundAt rule (way, m) := by
  simp only [foundAt, h]

/-- Only a leaf can hold a 1, so a change below an entry does not show in it. -/
theorem holdsOne_iff_of_edited (h : Edited old new path n m) (inner : path ≠ []) : HoldsOne n ↔ HoldsOne m := by
  cases h with
  | leaf => exact absurd rfl inner
  | entry below => rfl

theorem mappingViolates_iff_of_edited {before after : List (String × Tree)} (below : Edited old new path n m)
    (inner : rule = oneKeys → key = "one" → path ≠ []) :
    MappingViolates rule place (before ++ (key, n) :: after) ↔
      MappingViolates rule place (before ++ (key, m) :: after) := by
  have keys : Entries.keys (before ++ (key, n) :: after) = Entries.keys (before ++ (key, m) :: after) := by
    simp [Entries.keys]
  have governs : Governs place (before ++ (key, n) :: after) ↔ Governs place (before ++ (key, m) :: after) := by
    rw [Governs, keys, Governs]
  cases rule with
  | pluralizationKeys => rw [MappingViolates, governs, keys, MappingViolates]
  | oneKeys =>
    have one : (∃ one ∈ Entries.get? (before ++ (key, n) :: after) "one", HoldsOne one) ↔
        ∃ one ∈ Entries.get? (before ++ (key, m) :: after) "one", HoldsOne one := by
      rw [Entries.get?_entry, Entries.get?_entry]
      cases Entries.get? before "one" with
      | some first => rfl
      | none =>
        by_cases isOne : key = "one"
        · simp [isOne, holdsOne_iff_of_edited below (inner rfl isOne)]
        · simp [isOne]
    rw [MappingViolates, governs, one, MappingViolates]
  | _ => rfl

/-- At a node above the leaf the same is found, unless the rule looks at its text for one and the leaf is that. -/
theorem foundAt_eq_above (h : Edited old new path n m) (above : path ≠ []) (inner : rule = oneKeys → path ≠ ["one"]) :
    foundAt rule (way, n) = foundAt rule (way, m) := by
  cases h with
  | leaf => exact absurd rfl above
  | entry below =>
    refine foundAt_congr (mappingViolates_iff_of_edited below fun isOneKeys isOne hpath => ?_)
    exact inner isOneKeys (by rw [isOne, hpath])

/-- At the leaf itself nothing is found for a rule for mappings. -/
theorem foundAt_eq_of_ofMappings (h : Edited old new path n m) (ofMappings : rule.OfMappings)
    (inner : rule = oneKeys → path ≠ ["one"]) : foundAt rule (way, n) = foundAt rule (way, m) := by
  cases h with
  | leaf =>
    have none : ∀ text, ¬ Violates rule (way, .leaf text) := fun text violates =>
      not_ofMappings_of_leafViolates violates ofMappings
    simp only [foundAt, none]
  | entry below => exact foundAt_eq_above (.entry below) (List.cons_ne_nil _ _) inner

end Found

end Rule

namespace Mapping
variable {rule : Rule} {old new last : String} {path parent : List String} {tree other : Mapping}

theorem violating_eq_flatMap (tree : Mapping) (rule : Rule) :
    tree.violating rule = (nodes (.mapping tree)).flatMap (foundAt rule) := by
  unfold foundAt
  rw [flatMap_ite, ← List.map_eq_flatMap, violating]

/-- What is found differs in one place if the same is found at every node on the way to the leaf but one. -/
theorem differsAt_of_edited (h : Edited old new path (.mapping tree) (.mapping other)) {way rest : List String}
    (split : path = way ++ rest) (same : ∀ way' rest' n m, path = way' ++ rest' → way' ≠ way →
      Edited old new rest' n m → foundAt rule (way', n) = foundAt rule (way', m)) :
    DiffersAt (dotted way) (tree.violating rule) (other.violating rule) := by
  obtain ⟨n, m, before, after, -, found, found'⟩ := h.flatMap_nodes_at split same
  rw [← violating_eq_flatMap] at found found'
  exact ⟨before, _, _, after, foundAt_cases rule (way, n), foundAt_cases rule (way, m), found, found'⟩

theorem changesAt_of_edited (h : Edited old new (parent ++ [last]) (.mapping tree) (.mapping other)) (rule : Rule) :
    rule.ChangesAt parent last (tree.violating rule) (other.violating rule) := by
  have same : rule.OfMappings → (rule = oneKeys → last ≠ "one") → tree.violating rule = other.violating rule := by
    intro ofMappings notOne
    rw [violating_eq_flatMap, violating_eq_flatMap]
    refine h.flatMap_nodes_eq fun way rest n m split edited => ?_
    refine foundAt_eq_of_ofMappings edited ofMappings fun isOneKeys hrest => ?_
    rw [hrest] at split
    exact notOne isOneKeys (List.cons.inj (List.append_inj' split rfl).2).1
  have leaf : ¬ rule.OfMappings →
      DiffersAt (dotted (parent ++ [last])) (tree.violating rule) (other.violating rule) := by
    intro ofLeaves
    refine differsAt_of_edited h (List.append_nil _).symm fun way rest n m split ne edited => ?_
    refine foundAt_eq_above edited (fun hrest => ne ?_) (fun isOneKeys => absurd (isOneKeys ▸ trivial) ofLeaves)
    rw [split, hrest, List.append_nil]
  cases rule with
  | pluralizationKeys => exact same trivial nofun
  | oneKeys =>
    rw [ChangesAt]
    split
    · -- The mapping around the text for one is the only node at which something else can be found.
      rename_i isOne
      rw [isOne] at h
      refine differsAt_of_edited h rfl fun way rest n m split ne edited => ?_
      refine foundAt_eq_of_ofMappings edited trivial fun _ hrest => ne ?_
      rw [hrest] at split
      exact (List.append_inj' split rfl).1.symm
    · rename_i notOne
      exact same trivial fun _ => notOne
  | _ => exact leaf id

end Mapping

namespace Validator

/-- Checks of a tree and of the tree with another text at one leaf find the same, but for what is found at the leaf,
    or at the mapping around it if it is the text for one. -/
theorem check_withText {ε : Type} (v : Validator) {tree : Mapping} {parent : List String} {last old : String}
    (h : follow (parent ++ [last]) (.mapping tree) = some (.leaf old)) (new : String) :
    ∃ checked edited, (v.check tree : Run ε Validator).result = .ok checked ∧
      (v.check (tree.withText (parent ++ [last]) new) : Run ε Validator).result = .ok edited ∧
      checked.errors.map (·.1) = Rule.all ∧
      List.Forall₂ (fun e f => e.1 = f.1 ∧ e.1.ChangesAt parent last e.2 f.2) checked.errors edited.errors := by
  have edited := edited_withText h new
  rw [Tree.withText_mapping] at edited
  rw [check_eq, check_eq]
  refine ⟨_, _, rfl, rfl, rfl, ?_⟩
  show List.Forall₂ _ (Rule.all.map fun rule => (rule, tree.violating rule)) (Rule.all.map fun rule => (rule, _))
  rw [List.forall₂_map_left_iff, List.forall₂_map_right_iff, List.forall₂_same]
  exact fun rule _ => ⟨rfl, Mapping.changesAt_of_edited edited rule⟩

/-- A tree in which two leaves have one dotted key. -/
def sameAddress : Mapping :=
  [("a.one", .leaf "](/b"), ("a", .mapping [("one", .leaf "1 %\x7bcount\x7d"), ("other", .leaf "](/c")])]

theorem check_withText_sameAddress :
    follow (["a"] ++ ["one"]) (.mapping sameAddress) = some (.leaf "1 %\x7bcount\x7d") ∧
    ∃ checked edited, ((ofFilename "en.yml").check sameAddress : Run ValidatorError Validator).result = .ok checked ∧
      ((ofFilename "en.yml").check (sameAddress.withText (["a"] ++ ["one"]) "](/1") :
        Run ValidatorError Validator).result = .ok edited ∧
      (.relativeLinks, ["a.one", "a.one", "a.other"]) ∈ edited.errors ∧ (.oneKeys, ["a"]) ∈ edited.errors ∧
      List.Forall₂ (fun e f => e.1 = f.1 ∧ e.1.ChangesAt ["a"] "one" e.2 f.2) checked.errors edited.errors := by
  have leads : follow (["a"] ++ ["one"]) (.mapping sameAddress) = some (.leaf "1 %\x7bcount\x7d") := by rfl
  obtain ⟨checked, edited, result, result', -, changes⟩ :=
    @check_withText ValidatorError (ofFilename "en.yml") sameAddress ["a"] "one" _ leads "](/1"
  have links : (sameAddress.withText (["a"] ++ ["one"]) "](/1").violating .relativeLinks =
      ["a.one", "a.one", "a.other"] := by
    decide +kernel
  have ones : (sameAddress.withText (["a"] ++ ["one"]) "](/1").violating .oneKeys = ["a"] := by decide +kernel
  rw [check_eq] at result'
  obtain rfl := Except.ok.inj result'
  refine ⟨leads, checked, _, result, by rw [check_eq], ?_, ?_, changes⟩
  · rw [← links]
    exact mem_errors_ofTree ..
  · rw [← ones]
    exact mem_errors_ofTree ..

end Validator

end LocaleLint
