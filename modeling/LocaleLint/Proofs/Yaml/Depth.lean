import LocaleLint.Proofs.Tree.Endless
import LocaleLint.Proofs.Yaml.Fitting
import LocaleLint.Proofs.Yaml.Unrolling

/-! # Reading down to a depth

What is read of a document when every container is opened once on each way to it is what is read of the unrolled
document at every depth that is large enough. If no depth is, nothing is read to its end in either of them: a container
that leads the first reading back into itself is read at a depth only if it is read at a smaller one.

Items of lists and values of mappings are read by two recursions of one form, so what holds of both is stated of that
form. -/

namespace LocaleLint.Yaml.Document
open Cells

variable {β : Type} {outcome : Value → β} {endless : β} {size : Nat} {deep : Nat → Ref → Value}
  {read : List Nat → Ref → Value}

/-- How the value `deep` that is read down to a depth and the value `read` that is read with some containers closed
    belong together: what is not opened gives one outcome in both, and what is opened gives in both of them one value
    of the values of its members. -/
inductive Unrolls (outcome : Value → β) (endless : β) (size : Nat) (deep : Nat → Ref → Value)
    (read : List Nat → Ref → Value) : Ref → Prop
  | still {ref : Ref} (deeper : ∀ n, Agree outcome endless (deep n ref) (deep (n + 1) ref))
    (closes : ∀ n closed, Agree outcome endless (deep n ref) (read closed ref))
    (opens : ∀ n closed, sizeOf (read closed ref) ≤ n → Agree outcome endless (read closed ref) (deep (n + 1) ref)) :
    Unrolls outcome endless size deep read ref
  | opened {id : Nat} {members : List Ref} (inside : ∀ r ∈ members, r.Fits size) (around : (Ref → Value) → Value)
    (congr : ∀ f g, (∀ r ∈ members, Agree outcome endless (f r) (g r)) → Agree outcome endless (around f) (around g))
    (smaller : ∀ f, ∀ r ∈ members, sizeOf (f r) < sizeOf (around f))
    (top : outcome (deep 0 (.container id)) = endless) (below : ∀ n, deep (n + 1) (.container id) = around (deep n))
    (once : ∀ closed, (id ∉ closed ∧ outcome (read closed (.container id)) = endless) ∨
      ∃ closed', Opens id closed closed' ∧ read closed (.container id) = around (read closed')) :
    Unrolls outcome endless size deep read (.container id)

/-- What is read in one way at all depths but the first. -/
theorem Unrolls.of_const {v : Value} {ref : Ref} (top : outcome (deep 0 ref) = endless ∨ deep 0 ref = v)
    (below : ∀ n, deep (n + 1) ref = v) (once : ∀ closed, read closed ref = v) :
    Unrolls outcome endless size deep read ref := by
  have agrees : ∀ n, Agree outcome endless (deep n ref) v := by
    intro n
    cases n with
    | zero => exact top.elim (agree_of_endless · _) fun h => h ▸ agree_refl outcome endless _
    | succ n => exact below n ▸ agree_refl outcome endless _
  refine .still (fun n => ?_) (fun n closed => ?_) fun n closed _ => ?_
  · rw [below]
    exact agrees n
  · rw [once]
    exact agrees n
  · rw [below, once]
    exact agree_refl outcome endless _

section Unrolls
variable (unrolls : ∀ ref : Ref, ref.Fits size → Unrolls outcome endless size deep read ref) {ref : Ref}
include unrolls

theorem Unrolls.deeper (fits : ref.Fits size) (n : Nat) : Agree outcome endless (deep n ref) (deep (n + 1) ref) := by
  induction n generalizing ref with
  | zero =>
    cases unrolls ref fits with
    | still deeper closes opens => exact deeper 0
    | opened inside around congr smaller top below once => exact agree_of_endless top _
  | succ n ih =>
    cases unrolls ref fits with
    | still deeper closes opens => exact deeper (n + 1)
    | opened inside around congr smaller top below once =>
      rw [below, below]
      exact congr _ _ fun r hr => ih (inside r hr)

theorem Unrolls.deepen (fits : ref.Fits size) {n m : Nat} (le : n ≤ m) : Agree outcome endless (deep n ref) (deep m ref) := by
  induction le with
  | refl => exact agree_refl outcome endless _
  | step _ ih => exact ih.trans (Unrolls.deeper unrolls fits _)

/-- What is read at a depth is read with containers closed, if those are read at no depth up to it. -/
theorem Unrolls.closes (n : Nat) {closed : List Nat} (fits : ref.Fits size)
    (unread : ∀ id < size, id ∉ closed → ∀ k ≤ n, outcome (deep k (.container id)) = endless) :
    Agree outcome endless (deep n ref) (read closed ref) := by
  induction n using Nat.strongRecOn generalizing ref closed with
  | _ n ih =>
  cases unrolls ref fits with
  | still deeper closes opens => exact closes n closed
  | @opened id members inside around congr smaller top below once =>
    intro ends
    by_cases least : ∀ k < n, outcome (deep k (.container id)) = endless
    · -- At the least depth at which it is read, the container is not open, and it has been read at no depth at which its
      -- members are.
      have member : id ∈ closed := by
        by_contra h
        exact ends (unread id fits h n (Nat.le_refl n))
      obtain ⟨closed', opens, same⟩ := (once closed).resolve_left fun h => h.1 member
      cases n with
      | zero => exact absurd top ends
      | succ n =>
        rw [below] at ends ⊢
        rw [same]
        refine congr _ _ (fun r hr => ih n (Nat.lt_succ_self n) (inside r hr) fun other inside' h k hk => ?_) ends
        rcases opens other h with h | rfl
        · exact unread other inside' h k (Nat.le_succ_of_le hk)
        · exact least k (Nat.lt_succ_of_le hk)
    · obtain ⟨k, hk⟩ := not_forall.mp least
      obtain ⟨smaller, read⟩ := Classical.not_imp.mp hk
      rw [Unrolls.deepen unrolls fits (Nat.le_of_lt smaller) read]
      exact ih k smaller fits (fun other inside' h j hj => unread other inside' h j (by omega)) read

/-- What is read with containers closed is read at every depth that is as large as its value. -/
theorem Unrolls.opens (n : Nat) {closed : List Nat} (fits : ref.Fits size) (small : sizeOf (read closed ref) ≤ n) :
    Agree outcome endless (read closed ref) (deep (n + 1) ref) := by
  induction n using Nat.strongRecOn generalizing ref closed with
  | _ n ih =>
  cases unrolls ref fits with
  | still deeper closes opens => exact opens n closed small
  | opened inside around congr smaller top below once =>
    rcases once closed with ⟨-, h⟩ | ⟨closed', -, h⟩
    · exact agree_of_endless h _
    · rw [h] at small ⊢
      rw [below]
      refine congr _ _ fun r hr => ?_
      have less := Nat.lt_of_lt_of_le (smaller (read closed') r hr) small
      exact (ih _ less (inside r hr) (Nat.le_refl _)).trans (Unrolls.deepen unrolls (inside r hr) less)

section AllClosed
variable {closed : List Nat} (fits : ref.Fits size) (all : ∀ id < size, id ∈ closed)
include fits all

/-- When no container is open, what is not read to its end is not at any depth. -/
theorem Unrolls.endless_of_read (h : outcome (read closed ref) = endless) (n : Nat) : outcome (deep n ref) = endless := by
  by_contra ends
  exact ends ((Unrolls.closes unrolls n fits (fun id inside opened => absurd (all id inside) opened) ends).symm.trans h)

/-- When no container is open, the same is read at every depth that is large enough. -/
theorem Unrolls.eventually : ∃ depth, ∀ n ≥ depth, outcome (deep n ref) = outcome (read closed ref) := by
  by_cases h : outcome (read closed ref) = endless
  · exact ⟨0, fun n _ => (Unrolls.endless_of_read unrolls fits all h n).trans h.symm⟩
  · refine ⟨sizeOf (read closed ref) + 1, fun n deep => ?_⟩
    obtain ⟨m, rfl⟩ := Nat.exists_eq_add_of_le' deep
    exact Unrolls.opens unrolls _ fits (Nat.le_add_left _ m) h

end AllClosed

end Unrolls

/-! ### Items and values -/

section Document
variable {d : Document} {s : Cells} {id : Nat} (fits : d.Fits)
include fits

theorem Fits.cell (id : Nat) : (d.cell id).Fits d.cells.size := by
  rw [Document.cell, Array.getD_eq_getD_getElem?]
  cases hid : d.cells[id]? with
  | none => exact List.forall_mem_nil _
  | some cell => exact fits.cells cell (Array.mem_of_getElem? hid)

variable (same : s.cells = d.cells) (settled : s.Settled)
include same settled

theorem unrollsItem (ref : Ref) :
    Unrolls Value.scalarText (.error .endless) d.cells.size d.unrolledItem (readingItem s) ref := by
  cases ref with
  | scalar v =>
    refine .of_const (v := v) (Or.inr ?_) (fun n => ?_) fun closed => ?_
    · rw [unrolledItem]
    · rw [unrolledItem]
    · rw [readingItem]
  | container id =>
    have top : Value.scalarText (d.unrolledItem 0 (.container id)) = .error .endless := rfl
    by_cases list : ∃ items, d.cell id = .list items
    · obtain ⟨items, hcell⟩ := list
      have inside : ∀ r ∈ items, r.Fits d.cells.size := by
        have held := fits.cell id
        rwa [hcell] at held
      refine .opened inside (fun f => .list (items.map f)) (fun f g h => Value.list_congr h) (fun f r hr => ?_) top
        (fun n => unrolledItem_list hcell) fun closed => ?_
      · have := List.sizeOf_lt_of_mem (List.mem_map_of_mem (f := f) hr)
        rw [Value.list.sizeOf_spec]
        omega
      · rcases readingItem_list same settled closed hcell with ⟨opened, h⟩ | inner
        · exact Or.inl ⟨opened, h ▸ rfl⟩
        · exact Or.inr inner
    · have other := not_exists.mp list
      exact .of_const (Or.inl top) (fun n => unrolledItem_other other) fun closed => readingItem_other same settled other

omit fits settled in
theorem mem_all (inside : id < d.cells.size) : id ∈ s.all := all_eq same ▸ List.mem_range.mpr inside

theorem unrollsValue {ref : Ref} (inside : ref.Fits d.cells.size) :
    Unrolls Tree.outcome Tree.endless d.cells.size d.unrolled (reading s) ref := by
  cases ref with
  | scalar v =>
    refine .of_const (v := v) (Or.inr ?_) (fun n => ?_) fun closed => ?_
    · rw [unrolled]
    · rw [unrolled]
    · rw [reading]
  | container id =>
    by_cases mapping : ∃ entries, d.cell id = .mapping entries
    · obtain ⟨entries, hcell⟩ := mapping
      have inside : ∀ r ∈ entries.map (·.2), r.Fits d.cells.size := by
        have held := fits.cell id
        rw [hcell] at held
        exact List.forall_mem_map.mpr fun e he => (held e he).2
      refine .opened inside (fun f => .mapping (entries.map fun e => (e.1, f e.2))) (fun f g h => ?_) (fun f r hr => ?_)
        rfl (fun n => unrolled_mapping hcell) fun closed => ?_
      · exact Tree.mapping_congr fun e he => h e.2 (List.mem_map_of_mem he)
      · obtain ⟨e, he, rfl⟩ := List.mem_map.mp hr
        exact Value.sizeOf_lt_of_mem (List.mem_map_of_mem (f := fun e => (e.1, f e.2)) he)
      · rcases reading_mapping closed settled (cell_eq same id ▸ hcell) with ⟨opened, h⟩ | inner
        · exact Or.inl ⟨opened, h ▸ rfl⟩
        · exact Or.inr inner
    · -- What is no mapping is read as an item, with no list open.
      have other := not_exists.mp mapping
      have items := fun r (_ : r.Fits d.cells.size) => unrollsItem fits same settled r
      have deep : ∀ n es, d.unrolledItem n (.container id) ≠ .mapping es := fun n => not_mapping_of_unrolledItem other
      have item : reading s s.all (.container id) = readingItem s s.all (.container id) := reading_other same other
      have read : ∀ es, readingItem s s.all (.container id) ≠ .mapping es := fun es => by
        rw [← item]
        exact not_mapping_of_reading settled (fun entries h => other entries (cell_eq same id ▸ h)) es
      refine .still (fun n => ?_) (fun n closed => ?_) fun n closed small => ?_
      · rw [unrolled_other other, unrolled_other other]
        exact Tree.ofValue_other_congr (deep n) (deep (n + 1)) (Unrolls.deeper items inside n)
      · rw [unrolled_other other, reading_other same other]
        refine Tree.ofValue_other_congr (deep n) read (Unrolls.closes items n inside fun id inside h => ?_)
        exact absurd (mem_all same inside) h
      · rw [reading_other same other] at small ⊢
        rw [unrolled_other other]
        exact Tree.ofValue_other_congr read (deep (n + 1)) (Unrolls.opens items n inside small)

/-- What is read of a container with nothing open is read at every depth that is large enough. -/
theorem exists_depth (inside : id < d.cells.size) : ∃ depth, ∀ n ≥ depth,
    Tree.outcome (d.unrolled n (.container id)) = Tree.outcome (reading s s.all (.container id)) :=
  Unrolls.eventually (fun _ => unrollsValue fits same settled) inside fun _ => mem_all same

theorem endless_at_depth (inside : id < d.cells.size)
    (h : Tree.outcome (reading s s.all (.container id)) = Tree.endless) (n : Nat) :
    Tree.outcome (d.unrolled n (.container id)) = Tree.endless := by
  have fit : (Ref.container id).Fits d.cells.size := inside
  exact Unrolls.endless_of_read (fun _ => unrollsValue fits same settled) fit (fun _ => mem_all same) h n

end Document

end LocaleLint.Yaml.Document
