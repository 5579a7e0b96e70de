import Mathlib.Logic.Relation
import LocaleLint.Proofs.Value.Within
import LocaleLint.Proofs.Yaml.Reading

/-! # Documents unrolled

A document is read by three recursions that hand over to each other. A mapping is read through its values, a list
through its items, and what is neither is printed, which stops at a container that is being printed already. The first
two stop at nothing, so what they read of a document is its unrolling, cut off at the depth to which they get. The
value that is read of a document has each mapping and each list opened in the same way, but it is cut off where one
is open already. -/

namespace LocaleLint.Yaml

/-- The value of what a container holds, by the values of its members. -/
def Cell.valueOf (f : Ref → Value) : Cell → Value
  | .list items => .list (items.map f)
  | .tuple items => .tuple (items.map f)
  | .set items => .set items
  | .mapping entries => .mapping (entries.map fun e => (e.1, f e.2))

namespace Document
open Relation

section Graph
variable (d : Document)

def cell (id : Nat) : Cell := d.cells.getD id (.list [])

def all : List Nat := List.range d.cells.size

/-! ### What contains itself -/

/-- Whether one container is a mapping that holds another one as a value. -/
def HoldsValue (outer inner : Nat) : Prop :=
  ∃ entries key, d.cell outer = .mapping entries ∧ (key, .container inner) ∈ entries

/-- Whether one container is a list that holds another one as an item. -/
def HoldsItem (outer inner : Nat) : Prop := ∃ items, d.cell outer = .list items ∧ .container inner ∈ items

/-- Whether a container is, or reaches through items of lists, a list that contains itself through items of lists. -/
def ListLeadsBack (id : Nat) : Prop := ∃ list, ReflTransGen d.HoldsItem id list ∧ TransGen d.HoldsItem list list

/-- Whether a mapping that is reached through values of mappings contains itself through them, or holds a value from
    which a list leads back into itself. -/
def LeadsBack (id : Nat) : Prop :=
  ∃ mapping, ReflTransGen d.HoldsValue id mapping ∧
    (TransGen d.HoldsValue mapping mapping ∨ ∃ value, d.HoldsValue mapping value ∧ d.ListLeadsBack value)

/-! ### The unrolling -/

/-- A value as it is printed, where the containers of `closed` are not being printed. One that is being printed already
    is not looked into again. -/
def shown (closed : List Nat) (ref : Ref) : Value :=
  match ref with
  | .scalar v => v
  | .container id =>
    if _ : id ∈ closed then (d.cell id).valueOf fun r => shown (closed.erase id) r
    else .again (kindOf (d.cell id))
termination_by closed.length
decreasing_by exact length_erase_lt (by assumption)

/-- An item of a list as it is read down to a depth. -/
def unrolledItem : Nat → Ref → Value
  | _, .scalar v => v
  | 0, .container _ => .endless
  | n + 1, .container id =>
    match d.cell id with
    | .list items => .list (items.map (unrolledItem n))
    | _ => d.shown d.all (.container id)

/-- A value of a mapping as it is read down to a depth. -/
def unrolled : Nat → Ref → Value
  | _, .scalar v => v
  | 0, .container _ => .endless
  | n + 1, .container id =>
    match d.cell id with
    | .mapping entries => .mapping (entries.map fun e => (e.1, unrolled n e.2))
    | _ => d.unrolledItem (n + 1) (.container id)

end Graph

section Unrolled
variable {d : Document} {n id : Nat}

theorem unrolledItem_list {items : List Ref} (hcell : d.cell id = .list items) :
    d.unrolledItem (n + 1) (.container id) = .list (items.map (d.unrolledItem n)) := by
  rw [unrolledItem]
  simp only [hcell]

theorem unrolledItem_other (other : ∀ items, d.cell id ≠ .list items) :
    d.unrolledItem (n + 1) (.container id) = d.shown d.all (.container id) := by
  rw [unrolledItem]
  cases hcell : d.cell id with
  | list items => exact absurd hcell (other items)
  | _ => rfl

theorem unrolled_mapping {entries : Entries Value Ref} (hcell : d.cell id = .mapping entries) :
    d.unrolled (n + 1) (.container id) = .mapping (entries.map fun e => (e.1, d.unrolled n e.2)) := by
  rw [unrolled]
  simp only [hcell]

theorem unrolled_other (other : ∀ entries, d.cell id ≠ .mapping entries) :
    d.unrolled n (.container id) = d.unrolledItem n (.container id) := by
  cases n with
  | zero => rfl
  | succ n =>
    rw [unrolled]
    cases hcell : d.cell id with
    | mapping entries => exact absurd hcell (other entries)
    | _ => rfl

/-- No container but a mapping is read as a mapping. -/
theorem not_mapping_of_shown (other : ∀ entries, d.cell id ≠ .mapping entries) {closed : List Nat}
    (es : List (Value × Value)) : d.shown closed (.container id) ≠ .mapping es := by
  intro h
  rw [shown] at h
  split at h
  · cases hcell : d.cell id with
    | mapping entries => exact other entries hcell
    | list items | tuple items | set items =>
      rw [hcell] at h
      cases h
  · cases h

theorem not_mapping_of_unrolledItem (other : ∀ entries, d.cell id ≠ .mapping entries) (es : List (Value × Value)) :
    d.unrolledItem n (.container id) ≠ .mapping es := by
  cases n with
  | zero => exact nofun
  | succ n =>
    by_cases list : ∃ items, d.cell id = .list items
    · obtain ⟨items, hcell⟩ := list
      rw [unrolledItem_list hcell]
      exact nofun
    · rw [unrolledItem_other (not_exists.mp list)]
      exact not_mapping_of_shown other es

end Unrolled

/-! ### What is read of it -/

namespace Cells
variable {s : Cells} {id : Nat} {closed : List Nat} {v : Value}

/-- The value that the members of a container give has the values of its members in it, which are smaller. -/
theorem valueOf_of_cellValue? {cell : Cell} {f : Ref → Value} (h : s.cellValue? cell = some v)
    (hf : ∀ r w, s.refValue? r = some w → sizeOf w < sizeOf v → f r = w) : cell.valueOf f = v := by
  cases cell with
  | set items => exact Option.some.inj h
  | list items | tuple items =>
    obtain ⟨vs, hvs, rfl⟩ := Option.map_eq_some_iff.mp h
    refine (congrArg _ (eq_map_of_mapM (fun r w member hr => hf r w hr ?_) hvs)).symm
    have := List.sizeOf_lt_of_mem member
    simp only [Value.list.sizeOf_spec, Value.tuple.sizeOf_spec]
    omega
  | mapping entries =>
    obtain ⟨vs, hvs, rfl⟩ := Option.map_eq_some_iff.mp h
    refine (congrArg Value.mapping (eq_map_of_mapM (fun e e' member he => ?_) hvs)).symm
    obtain ⟨w, hw, rfl⟩ := Option.map_eq_some_iff.mp he
    rw [hf e.2 w hw (Value.sizeOf_lt_of_mem member)]

variable {d : Document} (same : s.cells = d.cells)
include same

theorem cell_eq (id : Nat) : s.cell id = d.cell id := by rw [Cells.cell, Document.cell, same]

theorem all_eq : s.all = d.all := by rw [Cells.all, Document.all, same]

/-- What is no mapping is read as an item of a list where it is a value of one. -/
theorem reading_other (other : ∀ entries, d.cell id ≠ .mapping entries) :
    reading s closed (.container id) = readingItem s s.all (.container id) := by
  cases hv : s.value? id with
  | some v =>
    rw [reading_of_refValue? (r := .container id) hv, readingItem_of_refValue? (r := .container id) hv]
  | none =>
    rw [reading]
    cases hcell : s.cell id with
    | mapping entries => exact absurd (cell_eq same id ▸ hcell) (other entries)
    | list items | tuple items | set items => simp only [hv]

variable (settled : s.Settled)
include settled

/-- An unfolded container is shown in full while no container in it is open. -/
theorem shown_of_value? (hv : s.value? id = some v)
    (inside : ∀ other w, s.value? other = some w → sizeOf w ≤ sizeOf v → other ∈ closed) :
    d.shown closed (.container id) = v := by
  induction hsize : sizeOf v using Nat.strongRecOn generalizing id v closed with
  | _ size ih =>
  rw [shown, dif_pos (inside id v hv (Nat.le_refl _))]
  refine valueOf_of_cellValue? (cell_eq same id ▸ settled.value hv) fun r w hr smaller => ?_
  cases r with
  | scalar u =>
    rw [shown]
    exact Option.some.inj hr
  | container number =>
    refine ih _ (hsize ▸ smaller) hr (fun other u hu below => ?_) rfl
    -- The container itself is larger than what is in it.
    have distinct : other ≠ id := by
      rintro rfl
      obtain rfl := Option.some.inj (hv.symm.trans hu)
      omega
    exact (List.mem_erase_of_ne distinct).mpr (inside other u hu (by omega))

/-- Printing unfolds what is shown. -/
theorem printing_eq_shown (ref : Ref) (inside : ∀ other w, s.value? other = some w → other ∈ closed) :
    printing s closed ref = d.shown closed ref := by
  induction hsize : closed.length using Nat.strongRecOn generalizing closed ref with
  | _ size ih =>
  cases ref with
  | scalar v => rw [printing, shown]
  | container id =>
    rw [printing]
    cases hv : s.value? id with
    | some v => exact (shown_of_value? same settled hv fun other w hw _ => inside other w hw).symm
    | none =>
      rw [shown]
      by_cases h : id ∈ closed
      · simp only [dif_pos h]
        have below : ∀ r, printing s (closed.erase id) r = d.shown (closed.erase id) r := by
          refine fun r => ih _ (hsize ▸ length_erase_lt h) r (fun other w hw => ?_) rfl
          refine (List.mem_erase_of_ne ?_).mpr (inside other w hw)
          rintro rfl
          cases hv.symm.trans hw
        rw [← cell_eq same id]
        cases s.cell id with
        | set items => rfl
        | list items | tuple items | mapping entries => simp only [Cell.valueOf, below]
      · simp only [dif_neg h, cell_eq same id]

theorem printing_all (ref : Ref) : printing s s.all ref = d.shown d.all ref := by
  rw [all_eq same]
  refine printing_eq_shown same settled ref fun other w hw => List.mem_range.mpr ?_
  have known := (Array.getElem?_eq_some_iff.mp (value?_eq_some.mp hw)).1
  rwa [settled.size, same] at known

/-- A list is read with its items, unless it is open already. -/
theorem readingItem_list (closed : List Nat) {items : List Ref} (hcell : d.cell id = .list items) :
    (id ∉ closed ∧ readingItem s closed (.container id) = .endless) ∨ ∃ closed', Opens id closed closed' ∧
      readingItem s closed (.container id) = .list (items.map (readingItem s closed')) := by
  rw [← cell_eq same id] at hcell
  cases hv : s.value? id with
  | some v =>
    have members := valueOf_of_cellValue? (f := readingItem s closed) (settled.value hv)
      fun r w hr _ => readingItem_of_refValue? hr
    rw [hcell] at members
    rw [readingItem_of_refValue? (r := .container id) hv]
    exact Or.inr ⟨closed, fun _ => Or.inl, members.symm⟩
  | none =>
    rw [readingItem]
    simp only [hv, hcell]
    by_cases h : id ∈ closed
    · rw [dif_pos h]
      exact Or.inr ⟨closed.erase id, opens_erase id closed, rfl⟩
    · rw [dif_neg h]
      exact Or.inl ⟨h, rfl⟩

/-- What is no list is printed where it is an item of one. -/
theorem readingItem_other (other : ∀ items, d.cell id ≠ .list items) :
    readingItem s closed (.container id) = d.shown d.all (.container id) := by
  rw [← printing_all same settled]
  cases hv : s.value? id with
  | some v =>
    rw [readingItem_of_refValue? (r := .container id) hv, printing]
    simp only [hv]
  | none =>
    rw [readingItem]
    cases hcell : s.cell id with
    | list items => exact absurd (cell_eq same id ▸ hcell) (other items)
    | tuple items | set items | mapping entries => simp only [hv]

end Cells

end Document

end LocaleLint.Yaml
