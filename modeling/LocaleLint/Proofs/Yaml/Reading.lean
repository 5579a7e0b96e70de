import LocaleLint.Yaml.Document.Unfold

/-! # How mappings are read

A container that has been unfolded has the value that its members give. So a container that is a mapping is read as
a mapping with the same keys, whose values are read from the same places, or it leads back into itself; and nothing
else is read as a mapping. -/

namespace LocaleLint.Yaml.Document

section MapM
variable {α β : Type} {f g : α → Option β} {l : List α} {bs : List β}

theorem mapM_mono (h : ∀ a b, f a = some b → g a = some b) (hl : l.mapM f = some bs) : l.mapM g = some bs := by
  induction l generalizing bs with
  | nil => exact hl
  | cons a rest ih =>
    rw [List.mapM_cons] at hl ⊢
    obtain ⟨b, hb, hrest⟩ := Option.bind_eq_some_iff.mp hl
    obtain ⟨others, hothers, hcons⟩ := Option.bind_eq_some_iff.mp hrest
    exact Option.bind_eq_some_iff.mpr ⟨b, h a b hb, Option.bind_eq_some_iff.mpr ⟨others, ih hothers, hcons⟩⟩

theorem eq_map_of_mapM {k : α → β} (h : ∀ a, ∀ b ∈ bs, f a = some b → k a = b) (hl : l.mapM f = some bs) :
    bs = l.map k := by
  induction l generalizing bs with
  | nil => exact (Option.some.inj hl).symm
  | cons a rest ih =>
    rw [List.mapM_cons] at hl
    obtain ⟨b, hb, hrest⟩ := Option.bind_eq_some_iff.mp hl
    obtain ⟨others, hothers, hcons⟩ := Option.bind_eq_some_iff.mp hrest
    obtain rfl : b :: others = bs := Option.some.inj hcons
    rw [List.map_cons, h a b List.mem_cons_self hb, ← ih (fun a b hb => h a b (List.mem_cons_of_mem _ hb)) hothers]

end MapM

namespace Cells
variable {s t : Cells} {id : Nat} {v : Value}

theorem cellValue?_mono (h : ∀ id v, s.value? id = some v → t.value? id = some v) {cell : Cell}
    (hv : s.cellValue? cell = some v) : t.cellValue? cell = some v := by
  have ref : ∀ r v, s.refValue? r = some v → t.refValue? r = some v := by
    intro r v hr
    cases r with
    | scalar w => exact hr
    | container id => exact h id v hr
  cases cell with
  | set items => exact hv
  | list items | tuple items =>
    obtain ⟨vs, hvs, rfl⟩ := Option.map_eq_some_iff.mp hv
    exact Option.map_eq_some_iff.mpr ⟨vs, mapM_mono ref hvs, rfl⟩
  | mapping entries =>
    obtain ⟨vs, hvs, rfl⟩ := Option.map_eq_some_iff.mp hv
    refine Option.map_eq_some_iff.mpr ⟨vs, mapM_mono ?_ hvs, rfl⟩
    intro e b hb
    obtain ⟨w, hw, rfl⟩ := Option.map_eq_some_iff.mp hb
    exact Option.map_eq_some_iff.mpr ⟨w, ref e.2 w hw, rfl⟩

/-- Whether the containers that have been unfolded have the values that their members give. -/
structure Settled (s : Cells) : Prop where
  size : s.known.size = s.cells.size
  value : ∀ {id v}, s.value? id = some v → s.cellValue? (s.cell id) = some v

theorem value?_eq_some : s.value? id = some v ↔ s.known[id]? = some (some v) := by
  rw [value?, Array.getD_eq_getD_getElem?]
  cases s.known[id]? with
  | none => exact ⟨nofun, nofun⟩
  | some o => exact Option.some_inj.symm

theorem cell_of_getElem? {cell : Cell} (h : s.cells[id]? = some cell) : s.cell id = cell := by
  rw [Cells.cell, Array.getD_eq_getD_getElem?, h]
  rfl

theorem getElem?_of_cell {entries : Entries Value Ref} (h : s.cell id = .mapping entries) :
    s.cells[id]? = some (.mapping entries) := by
  rw [Cells.cell, Array.getD_eq_getD_getElem?] at h
  cases hid : s.cells[id]? with
  | none =>
    rw [hid] at h
    cases h
  | some cell =>
    rw [hid] at h
    exact congrArg some h

/-- A round keeps the values that are there and adds those that they give. -/
theorem value?_settleOnce : s.settleOnce.value? id = some v ↔
    ∃ cell o, s.cells[id]? = some cell ∧ s.known[id]? = some o ∧ o.or (s.cellValue? cell) = some v := by
  rw [value?_eq_some, settleOnce]
  simp only [Array.getElem?_map, Option.map_eq_some_iff, Array.getElem?_zip_eq_some]
  constructor
  · rintro ⟨⟨cell, o⟩, ⟨hcell, ho⟩, h⟩
    exact ⟨cell, o, hcell, ho, h⟩
  · rintro ⟨cell, o, hcell, ho, h⟩
    exact ⟨⟨cell, o⟩, ⟨hcell, ho⟩, h⟩

namespace Settled

theorem grows (h : s.Settled) (hv : s.value? id = some v) : s.settleOnce.value? id = some v := by
  have known := value?_eq_some.mp hv
  have inside : id < s.cells.size := h.size ▸ (Array.getElem?_eq_some_iff.mp known).1
  exact value?_settleOnce.mpr ⟨s.cells[id], some v, Array.getElem?_eq_getElem inside, known, rfl⟩

theorem settleOnce (h : s.Settled) : s.settleOnce.Settled := by
  refine ⟨?_, fun {id v} hv => ?_⟩
  · rw [Cells.settleOnce]
    simp only [Array.size_map, Array.size_zip, h.size, Nat.min_self]
  · obtain ⟨cell, o, hcell, ho, hvalue⟩ := value?_settleOnce.mp hv
    have now : s.cellValue? cell = some v := by
      cases o with
      | none => exact hvalue
      | some w =>
        obtain rfl := Option.some.inj hvalue
        rw [← cell_of_getElem? hcell]
        exact h.value (value?_eq_some.mpr ho)
    have same : s.settleOnce.cell id = cell := cell_of_getElem? hcell
    rw [same]
    exact cellValue?_mono (fun _ _ => h.grows) now

theorem settle (h : s.Settled) (n : Nat) : (settle n s).Settled ∧ (settle n s).cells = s.cells := by
  induction n generalizing s with
  | zero => exact ⟨h, rfl⟩
  | succ n ih =>
    rw [Cells.settle]
    split
    · exact ⟨h, rfl⟩
    · exact ih h.settleOnce

theorem ofArray (cells : Array Cell) : (Cells.ofArray cells).Settled ∧ (Cells.ofArray cells).cells = cells := by
  refine settle ⟨Array.size_replicate, fun {id v} hv => ?_⟩ cells.size
  have known := value?_eq_some.mp hv
  rw [Array.getElem?_replicate] at known
  split at known <;> cases known

end Settled

/-! ### Mappings -/

section Reading
variable {closed : List Nat} {entries : Entries Value Ref}

theorem reading_of_refValue? {r : Ref} (h : s.refValue? r = some v) : reading s closed r = v := by
  cases r with
  | scalar w =>
    rw [reading]
    exact Option.some.inj h
  | container id =>
    have known : s.value? id = some v := h
    rw [reading]
    simp only [known]

theorem readingItem_of_refValue? {r : Ref} (h : s.refValue? r = some v) : readingItem s closed r = v := by
  cases r with
  | scalar w =>
    rw [readingItem]
    exact Option.some.inj h
  | container id =>
    have known : s.value? id = some v := h
    rw [readingItem]
    simp only [known]

/-- Whether no containers but one have been opened since others were closed. -/
def Opens (id : Nat) (closed closed' : List Nat) : Prop := ∀ other, other ∉ closed' → other ∉ closed ∨ other = id

theorem opens_erase (id : Nat) (closed : List Nat) : Opens id closed (closed.erase id) := by
  intro other opened
  by_cases same : other = id
  · exact Or.inr same
  · exact Or.inl fun member => opened ((List.mem_erase_of_ne same).mpr member)

/-- A mapping is read with its keys, unless it is open already. -/
theorem reading_mapping (closed : List Nat) (settled : s.Settled) (hcell : s.cell id = .mapping entries) :
    (id ∉ closed ∧ reading s closed (.container id) = .endless) ∨ ∃ closed', Opens id closed closed' ∧
      reading s closed (.container id) = .mapping (entries.map fun e => (e.1, reading s closed' e.2)) := by
  cases hvalue : s.value? id with
  | some v =>
    have members := settled.value hvalue
    rw [hcell] at members
    obtain ⟨vs, hvs, rfl⟩ := Option.map_eq_some_iff.mp members
    refine Or.inr ⟨closed, fun _ => Or.inl, ?_⟩
    rw [reading_of_refValue? (show s.refValue? (.container id) = _ from hvalue)]
    refine congrArg Value.mapping (eq_map_of_mapM ?_ hvs)
    intro e b _ hb
    obtain ⟨w, hw, rfl⟩ := Option.map_eq_some_iff.mp hb
    rw [reading_of_refValue? hw]
  | none =>
    rw [reading]
    simp only [hvalue, hcell]
    by_cases h : id ∈ closed
    · rw [dif_pos h]
      exact Or.inr ⟨closed.erase id, opens_erase id closed, rfl⟩
    · rw [dif_neg h]
      exact Or.inl ⟨h, rfl⟩

theorem not_mapping_of_cellValue? {cell : Cell} (hcell : ∀ entries, cell ≠ .mapping entries)
    (h : s.cellValue? cell = some v) (es : List (Value × Value)) : v ≠ .mapping es := by
  rintro rfl
  cases cell with
  | mapping entries => exact hcell entries rfl
  | set items => cases h
  | list items | tuple items =>
    obtain ⟨vs, -, h⟩ := Option.map_eq_some_iff.mp h
    cases h

theorem not_mapping_of_printing (hvalue : s.value? id = none) (hcell : ∀ entries, s.cell id ≠ .mapping entries)
    (es : List (Value × Value)) : printing s closed (.container id) ≠ .mapping es := by
  intro h
  rw [printing] at h
  simp only [hvalue] at h
  split at h
  · split at h
    · cases h
    · cases h
    · cases h
    · rename_i entries hid
      exact hcell entries hid
  · cases h

/-- No container but a mapping is read as a mapping. -/
theorem not_mapping_of_reading (settled : s.Settled) (hcell : ∀ entries, s.cell id ≠ .mapping entries)
    (es : List (Value × Value)) : reading s closed (.container id) ≠ .mapping es := by
  cases hvalue : s.value? id with
  | some v =>
    rw [reading_of_refValue? (show s.refValue? (.container id) = _ from hvalue)]
    exact not_mapping_of_cellValue? hcell (settled.value hvalue) es
  | none =>
    intro h
    rw [reading] at h
    cases hid : s.cell id with
    | mapping entries => exact hcell entries hid
    | list items =>
      simp only [hvalue, hid] at h
      rw [readingItem] at h
      simp only [hvalue, hid] at h
      split at h <;> cases h
    | tuple items | set items =>
      simp only [hvalue, hid] at h
      rw [readingItem] at h
      simp only [hvalue, hid] at h
      exact not_mapping_of_printing hvalue hcell es h

end Reading

end Cells

/-! ### The value of a document -/

section Value
open Cells
variable {d : Document} {id : Nat}

theorem cell_ofArray {cell : Cell} (holds : d.cells[id]? = some cell) : (Cells.ofArray d.cells).cell id = cell :=
  cell_of_getElem? (by rw [(Settled.ofArray d.cells).2, holds])

theorem value_of_mapping {entries : Entries Value Ref} (hroot : d.root = .container id)
    (holds : d.cells[id]? = some (.mapping entries)) : d.value =
      .mapping (entries.map fun e => (e.1, reading (Cells.ofArray d.cells) (Cells.ofArray d.cells).all e.2)) := by
  rw [value, hroot]
  simp only [cell_ofArray holds]

theorem value_of_other (other : ∀ id, d.root = .container id → ∀ entries, d.cells[id]? ≠ some (.mapping entries)) :
    d.value = reading (Cells.ofArray d.cells) (Cells.ofArray d.cells).all d.root := by
  rw [value]
  cases hroot : d.root with
  | scalar v => rw [reading]
  | container id =>
    cases hcell : (Cells.ofArray d.cells).cell id with
    | mapping entries =>
      have holds := getElem?_of_cell hcell
      rw [(Settled.ofArray d.cells).2] at holds
      exact absurd holds (other id hroot entries)
    | list items | tuple items | set items => simp only [hcell]

end Value

end LocaleLint.Yaml.Document
