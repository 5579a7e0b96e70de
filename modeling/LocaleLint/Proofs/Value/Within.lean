import Mathlib.Logic.Basic
import LocaleLint.Value.Basic

/-! # Mappings within a value

A loaded mapping holds the mappings among its values, those among their values, and so on; nothing else is looked
into. What every level of a value has to have for itself, all the mappings within it have. -/

namespace LocaleLint.Value

theorem sizeOf_lt_of_mem {entries : List (Value × Value)} {e : Value × Value} (member : e ∈ entries) :
    sizeOf e.2 < sizeOf (Value.mapping entries) := by
  have smaller := List.sizeOf_lt_of_mem member
  rw [Prod.mk.sizeOf_spec] at smaller
  rw [Value.mapping.sizeOf_spec]
  omega

/-- The mappings that a value is or that are reached from it through values of mappings, by their entries. -/
inductive Within : List (Value × Value) → Value → Prop
  | here {entries : List (Value × Value)} : Within entries (.mapping entries)
  | deeper {entries inner : List (Value × Value)} {e : Value × Value} (member : e ∈ entries) (within : Within inner e.2) :
      Within inner (.mapping entries)

theorem not_within_of_not_mapping {v : Value} (other : ∀ entries, v ≠ .mapping entries) (inner : List (Value × Value)) :
    ¬ Within inner v := by
  rintro (_ | _)
  · exact other _ rfl
  · exact other _ rfl

theorem forall_within_mapping {entries : List (Value × Value)} {P : List (Value × Value) → Prop} :
    (∀ inner, Within inner (.mapping entries) → P inner) ↔
      P entries ∧ ∀ e ∈ entries, ∀ inner, Within inner e.2 → P inner := by
  constructor
  · exact fun h => ⟨h entries .here, fun e member inner within => h inner (.deeper member within)⟩
  · rintro ⟨own, below⟩ inner (_ | ⟨member, within⟩)
    · exact own
    · exact below _ member inner within

/-- What a mapping has if its own entries and the mappings among its values are right, it has if all the mappings
    within it are. -/
theorem iff_forall_within (All : Value → Prop) {Own : List (Value × Value) → Prop}
    (other : ∀ v, (∀ entries, v ≠ .mapping entries) → All v)
    (level : ∀ entries, All (.mapping entries) ↔ Own entries ∧ ∀ e ∈ entries, All e.2) (v : Value) :
    All v ↔ ∀ inner, Within inner v → Own inner := by
  by_cases mapping : ∃ entries, v = .mapping entries
  · obtain ⟨entries, hv⟩ := mapping
    have below : ∀ e ∈ entries, (All e.2 ↔ ∀ inner, Within inner e.2 → Own inner) :=
      fun e member => iff_forall_within All other level e.2
    rw [hv, level, forall_within_mapping]
    exact and_congr_right fun _ => forall₂_congr below
  · have none : ∀ entries, v ≠ .mapping entries := not_exists.mp mapping
    exact iff_of_true (other v none) fun inner within => absurd within (not_within_of_not_mapping none inner)
termination_by sizeOf v
decreasing_by exact hv ▸ sizeOf_lt_of_mem member

end LocaleLint.Value
