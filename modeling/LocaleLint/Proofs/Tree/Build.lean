import LocaleLint.Proofs.Tree.Reordered
import LocaleLint.Proofs.Tree.Slots
import LocaleLint.Proofs.Value.Within

/-! # Where building a tree ends

Where everything has a text, a loaded mapping becomes a tree unless two keys of one of its mappings have the same
text, and then the first key that comes again is the fault. -/

namespace LocaleLint

open Value

namespace Value

instance : DecidablePred HasText := fun v =>
  match h : v.scalarText with
  | .ok s => isTrue ⟨s, h⟩
  | .error _ => isFalse fun ⟨_, hs⟩ => nomatch h.symm.trans hs

instance : DecidablePred Slot.Legible := fun p =>
  decidable_of_iff (p.key.HasText ∧ Slot.valueFault? p.value = none)
    ⟨fun h => ⟨h.1, Slot.valueFault?_eq_none.mp h.2⟩, fun h => ⟨h.key, Slot.valueFault?_eq_none.mpr h.value⟩⟩

/-- Whether the keys of entries have texts, and so have the values that are no mappings. -/
def Coerces (entries : List (Value × Value)) : Prop :=
  ∀ e ∈ entries, e.1.HasText ∧ ((∃ inner, e.2 = .mapping inner) ∨ e.2.HasText)

/-- Whether no two keys of entries have the same text. -/
def TellsApart (entries : List (Value × Value)) : Prop := (entries.map (·.1)).Pairwise fun k l => ¬ SameText k l

theorem legible_iff_coerces (v : Value) : (∀ p ∈ v.slots, p.Legible) ↔ ∀ inner, Within inner v → Coerces inner := by
  refine iff_forall_within (fun v => ∀ p ∈ v.slots, p.Legible) (fun v other => ?_) (fun entries => ?_) v
  · rw [Tree.slots_of_not_mapping other]
    exact List.forall_mem_nil _
  · rw [Tree.legible_slots, Coerces]
    exact forall₂_and

theorem new_iff_tellsApart (v : Value) : (∀ p ∈ v.slots, ¬ p.Repeats) ↔ ∀ inner, Within inner v → TellsApart inner := by
  refine iff_forall_within (fun v => ∀ p ∈ v.slots, ¬ p.Repeats) (fun v other => ?_) (fun _ => Tree.new_slots) v
  rw [Tree.slots_of_not_mapping other]
  exact List.forall_mem_nil _

end Value

namespace Tree
open Value.Slot
variable {entries : List (Value × Value)} {parent : String} {e : BuildError}

theorem build_isOk_of_legible (legible : ∀ p ∈ (Value.mapping entries).slots, p.Legible) :
    (∃ tree, build entries parent = .ok tree) ↔ ∀ p ∈ (Value.mapping entries).slots, ¬ p.Repeats := by
  rw [build_isOk, firstFault?_eq_none]
  exact forall₂_congr fun p member => ⟨Sound.new, fun new => ⟨legible p member, new⟩⟩

/-- The fault of a mapping whose entries have texts is the first key that comes again. -/
theorem first_repeat_of_build (legible : ∀ p ∈ (Value.mapping entries).slots, p.Legible)
    (failed : build entries parent = .error e) :
    ∃ before p after, (Value.mapping entries).slots = before ++ p :: after ∧ (∀ q ∈ before, ¬ q.Repeats) ∧ p.Repeats ∧
      e = .duplicateKey (p.dottedKey parent) := by
  have fault := build_eq_error.mp failed
  cases e with
  | coercion cause =>
    obtain ⟨before, p, after, order, -, textless⟩ := firstFault?_coercion.mp ⟨cause, fault⟩
    have member : p ∈ (Value.mapping entries).slots := order ▸ List.mem_append_right _ List.mem_cons_self
    exact absurd (legible p member) (not_legible_of_textless textless)
  | duplicateKey key =>
    obtain ⟨before, p, after, order, sound, repeats, rfl⟩ := firstFault?_duplicateKey.mp fault
    exact ⟨before, p, after, order, fun q member => (sound q member).new, repeats, rfl⟩

/-- A loaded mapping all of whose keys and values have texts becomes a tree if and only if no mapping within it has two
    keys of the same text. The tree has the same shape and tells its keys apart, wherever the mapping stands. If there
    is none, the fault is the first entry, each coming before what is below it, whose key has the text of an earlier
    key of its mapping, and it bears the dotted key of that entry. -/
theorem build_mirrors_or_repeats (coerces : ∀ inner, Within inner (.mapping entries) → Coerces inner) (parent : String) :
    ((∃ tree, build entries parent = .ok tree) ↔ ∀ inner, Within inner (.mapping entries) → TellsApart inner) ∧
    (∀ tree, build entries parent = .ok tree → (Value.mapping entries).Builds (.mapping tree) ∧
      Distinct (.mapping tree) ∧ ∀ other, build entries other = .ok tree) ∧
    ((¬ ∃ tree, build entries parent = .ok tree) → ∃ before p after,
      (Value.mapping entries).slots = before ++ p :: after ∧ (∀ q ∈ before, ¬ q.Repeats) ∧ p.Repeats ∧
      build entries parent = .error (.duplicateKey (dottedFrom parent ((p.path ++ [p.key]).map keyText)))) := by
  have legible := (legible_iff_coerces _).mpr coerces
  refine ⟨?_, fun tree built => ?_, fun none => ?_⟩
  · rw [build_isOk_of_legible legible, new_iff_tellsApart]
  · have builds := build_eq_ok_iff.mp built
    exact ⟨builds, distinct_of_builds builds, fun other => build_eq_ok_iff.mpr builds⟩
  · cases hbuild : build entries parent with
    | ok tree => exact absurd ⟨tree, hbuild⟩ none
    | error e =>
      obtain ⟨before, p, after, order, new, repeats, rfl⟩ := first_repeat_of_build legible hbuild
      exact ⟨before, p, after, order, new, repeats, rfl⟩

/-- A mapping with an empty key, and below it a truth value and a text that are the same key as texts. -/
def repeating : List (Value × Value) :=
  [(.null, .mapping [(.bool true, .list [.mapping [], .int 1]), (.text "", .mapping []), (.text "true", .null)]),
    (.text "", .null)]

theorem build_mirrors_or_repeats_repeating : (∀ inner, Within inner (.mapping repeating) → Coerces inner) ∧
    ∃ before p after, (Value.mapping repeating).slots = before ++ p :: after ∧ (∀ q ∈ before, ¬ q.Repeats) ∧
      p.Repeats ∧ dottedFrom "a" ((p.path ++ [p.key]).map keyText) = "a..true" := by
  have coerces : ∀ inner, Within inner (.mapping repeating) → Coerces inner :=
    (legible_iff_coerces _).mp (by decide +kernel)
  have failed : build repeating "a" = .error (.duplicateKey "a..true") := build_eq_error.mpr (by decide +kernel)
  have none : ¬ ∃ tree, build repeating "a" = .ok tree := by
    rw [failed]
    nofun
  obtain ⟨before, p, after, order, new, repeats, h⟩ := (build_mirrors_or_repeats coerces "a").2.2 none
  have key := BuildError.duplicateKey.inj (Except.error.inj (failed.symm.trans h))
  exact ⟨coerces, before, p, after, order, new, repeats, key.symm⟩

end Tree

end LocaleLint
