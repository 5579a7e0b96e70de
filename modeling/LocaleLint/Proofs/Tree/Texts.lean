import LocaleLint.Proofs.Tree.Build

/-! # Building sees texts only

Loaded mappings whose keys and values have the same texts entry by entry cannot be told apart by building: they
become the same tree, or the same key is at fault in both. A tree whose keys and texts are read as loaded texts is
such a mapping too, and building gives the tree back. -/

namespace LocaleLint

namespace Value

mutual

/-- Whether two loaded values are the same to building: mappings entry by entry, and other values by their texts. -/
inductive Alike : Value → Value → Prop
  | text {v w : Value} (other : ∀ entries, v ≠ .mapping entries) (other' : ∀ entries, w ≠ .mapping entries)
    (same : SameText v w) : Alike v w
  | mapping {es fs : List (Value × Value)} (entries : AlikeEntries es fs) : Alike (.mapping es) (.mapping fs)

/-- Whether entries are the same to building one by one. -/
inductive AlikeEntries : List (Value × Value) → List (Value × Value) → Prop
  | nil : AlikeEntries [] []
  | cons {k l v w : Value} {es fs : List (Value × Value)} (key : SameText k l) (value : Alike v w)
    (rest : AlikeEntries es fs) : AlikeEntries ((k, v) :: es) ((l, w) :: fs)

end

theorem SameText.hasText {v w : Value} (same : SameText v w) : v.HasText := by
  obtain ⟨s, hv, -⟩ := same
  exact ⟨s, hv⟩

end Value

namespace Tree

mutual

/-- The loaded value that a tree is, all of whose keys and texts are texts. -/
def toValue : Tree → Value
  | .leaf text => .text text
  | .mapping entries => .mapping (toEntries entries)

/-- The loaded entries that a tree's entries are. -/
def toEntries : List (String × Tree) → List (Value × Value)
  | [] => []
  | (key, tree) :: rest => (.text key, toValue tree) :: toEntries rest

end

open Value Value.Slot

mutual

theorem ofValue_eq_of_alike {place : String} {v w : Value} (alike : Alike v w) : ofValue place v = ofValue place w := by
  match alike with
  | .text other other' ⟨s, hv, hw⟩ => rw [ofValue_of_not_mapping other, ofValue_of_not_mapping other', hv, hw]
  | .mapping entries => rw [ofValue, ofValue, ofEntries_eq_of_alike entries]

theorem ofEntries_eq_of_alike {parent : String} {taken : List String} {es fs : List (Value × Value)}
    (alike : AlikeEntries es fs) : ofEntries parent taken es = ofEntries parent taken fs := by
  match alike with
  | .nil => rfl
  | .cons (k := k) (l := l) (v := v) (w := w) ⟨s, hk, hl⟩ value rest =>
    -- Both entries have the same key, so what is below stands at one place and the same keys are taken after it.
    have first : ofValue (joinKey parent (String.ofList s)) v = ofValue (joinKey parent (String.ofList s)) w :=
      ofValue_eq_of_alike value
    rw [ofEntries, ofEntries, hk, hl]
    simp only [first, ofEntries_eq_of_alike rest]

end

mutual

theorem legible_of_alike {v w : Value} (alike : Alike v w) : ∀ p ∈ v.slots, p.Legible := by
  match alike with
  | .text other _ _ =>
    rw [slots_of_not_mapping other]
    exact List.forall_mem_nil _
  | .mapping entries => exact legible_slots.mpr (legible_of_alikeEntries entries)

theorem legible_of_alikeEntries {es fs : List (Value × Value)} (alike : AlikeEntries es fs) : ∀ e ∈ es,
    (e.1.HasText ∧ ((∃ inner, e.2 = .mapping inner) ∨ e.2.HasText)) ∧ ∀ p ∈ e.2.slots, p.Legible := by
  match alike with
  | .nil => exact List.forall_mem_nil _
  | .cons key value rest =>
    refine List.forall_mem_cons.mpr ⟨⟨⟨key.hasText, ?_⟩, legible_of_alike value⟩, legible_of_alikeEntries rest⟩
    cases value with
    | text _ _ same => exact Or.inr same.hasText
    | mapping _ => exact Or.inl ⟨_, rfl⟩

end

/-- What is alike to another mapping cannot fail for want of a text, so that building ends in a tree or in a key that
    comes again. -/
theorem build_of_alike {es fs : List (Value × Value)} (alike : AlikeEntries es fs) (parent : String) :
    (∃ tree, build es parent = .ok tree) ∨ ∃ key, build es parent = .error (.duplicateKey key) := by
  cases hbuild : build es parent with
  | ok tree => exact Or.inl ⟨tree, rfl⟩
  | error e =>
    obtain ⟨-, p, -, -, -, -, rfl⟩ := first_repeat_of_build (legible_of_alike (.mapping alike)) hbuild
    exact Or.inr ⟨_, rfl⟩

/-! ### Trees as loaded values -/

mutual

theorem builds_toValue (tree : Tree) (distinct : Distinct tree) : tree.toValue.Builds tree := by
  match tree with
  | .leaf s =>
    have leaf := Builds.leaf (v := .text s) (fun _ => nofun) (scalarText_text s)
    rwa [String.ofList_toList] at leaf
  | .mapping m =>
    obtain ⟨own, below⟩ := distinct_mapping.mp distinct
    exact .mapping (buildsEntries_toEntries m below) own

theorem buildsEntries_toEntries (m : List (String × Tree)) (distinct : ∀ entry ∈ m, Distinct entry.2) :
    BuildsEntries (toEntries m) m := by
  match m with
  | [] => exact .nil
  | (key, tree) :: rest =>
    obtain ⟨first, others⟩ := List.forall_mem_cons.mp distinct
    have entry := BuildsEntries.cons (scalarText_text key) (builds_toValue tree first)
      (buildsEntries_toEntries rest others)
    rwa [String.ofList_toList] at entry

end

theorem build_toEntries {m : Mapping} (distinct : Distinct (.mapping m)) (parent : String) :
    build (toEntries m) parent = .ok m := by
  have builds := builds_toValue (.mapping m) distinct
  rw [toValue] at builds
  exact build_eq_ok_iff.mpr builds

/-- Mappings that are alike become the same tree, or the same key comes again in both. A tree that tells its keys apart
    is built again from itself, and so is every tree that was built. -/
theorem build_sees_texts (parent : String) :
    (∀ es fs, AlikeEntries es fs → (∃ tree, build es parent = .ok tree ∧ build fs parent = .ok tree) ∨
      ∃ key, build es parent = .error (.duplicateKey key) ∧ build fs parent = .error (.duplicateKey key)) ∧
    (∀ tree : Mapping, Distinct (.mapping tree) → build (toEntries tree) parent = .ok tree) ∧
    ∀ entries place tree, build entries place = .ok tree → build (toEntries tree) parent = .ok tree := by
  refine ⟨fun es fs alike => ?_, fun tree distinct => build_toEntries distinct parent, fun entries place tree built => ?_⟩
  · have same : build es parent = build fs parent := ofEntries_eq_of_alike alike
    rcases build_of_alike alike parent with ⟨tree, h⟩ | ⟨key, h⟩
    · exact Or.inl ⟨tree, h, same ▸ h⟩
    · exact Or.inr ⟨key, h, same ▸ h⟩
  · exact build_toEntries (distinct_of_builds (build_eq_ok_iff.mp built)) parent

/-- Entries of several types, two of which are empty as keys. -/
def typed : List (Value × Value) :=
  [(.int 1, .list [.null, .bool true]), (.bool true, .mapping [(.null, .int 7), (.text "", .null)])]

/-- The same entries as texts, where they can be written as texts. -/
def spelled : List (Value × Value) :=
  [(.text "1", .text "[, true]"), (.text "true", .mapping [(.text "", .text "7"), (.null, .text "")])]

theorem build_sees_texts_typed : AlikeEntries typed spelled ∧
    build typed "a" = .error (.duplicateKey "a.true.") ∧ build spelled "a" = .error (.duplicateKey "a.true.") ∧
    build (toEntries [("", .mapping [("", .leaf "true")])]) "a" = .ok [("", .mapping [("", .leaf "true")])] := by
  obtain ⟨alikes, rebuilt, -⟩ := build_sees_texts "a"
  have inner : AlikeEntries [(.null, .int 7), (.text "", .null)] [(.text "", .text "7"), (.null, .text "")] :=
    .cons (by decide +kernel) (.text nofun nofun (by decide +kernel))
      (.cons (by decide +kernel) (.text nofun nofun (by decide +kernel)) .nil)
  have alike : AlikeEntries typed spelled :=
    .cons (by decide +kernel) (.text nofun nofun (by decide +kernel)) (.cons (by decide +kernel) (.mapping inner) .nil)
  have failed : build typed "a" = .error (.duplicateKey "a.true.") := build_eq_error.mpr (by decide +kernel)
  refine ⟨alike, failed, ?_, rebuilt _ (by decide +kernel)⟩
  rcases alikes _ _ alike with ⟨tree, built, -⟩ | ⟨key, failed', spelledFailed⟩
  · cases failed.symm.trans built
  · rw [spelledFailed, ← failed', failed]

end Tree

end LocaleLint
