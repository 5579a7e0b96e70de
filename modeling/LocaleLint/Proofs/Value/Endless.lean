import LocaleLint.Proofs.Value.Text

/-! # Texts of what is not read to its end

A value in which the marker of something endless stands may still fail for another reason, if that one is met first.
What is read before the marker is reached does not depend on what stands behind it: two values that differ only there
give the same, unless the marker is reached. -/

namespace LocaleLint

/-- Whether two values give the same outcome, unless the first one's is that of something endless. -/
def Agree {β : Type} (outcome : Value → β) (endless : β) (v w : Value) : Prop := outcome v ≠ endless → outcome w = outcome v

theorem agree_refl {β : Type} (outcome : Value → β) (endless : β) (v : Value) : Agree outcome endless v v := fun _ => rfl

theorem Agree.trans {β : Type} {outcome : Value → β} {endless : β} {u v w : Value} (h : Agree outcome endless u v)
    (h' : Agree outcome endless v w) : Agree outcome endless u w := fun ends => (h' (h ends ▸ ends)).trans (h ends)

theorem agree_of_endless {β : Type} {outcome : Value → β} {endless : β} {v : Value} (h : outcome v = endless) (w : Value) :
    Agree outcome endless v w := fun ends => absurd h ends

section Except
variable {ε α β : Type} {x y : Except ε α} {f : α → β} {e : ε}

theorem eq_error_of_map (h : x.map f = .error e) : x = .error e := by
  cases x with
  | error e' => exact congrArg Except.error (Except.error.inj h)
  | ok a => cases h

theorem eq_of_map_eq (injective : ∀ a b, f a = f b → a = b) (h : x.map f = y.map f) : x = y := by
  cases x with
  | error e =>
    cases y with
    | error e' => exact congrArg Except.error (Except.error.inj h)
    | ok b => cases h
  | ok a =>
    cases y with
    | error e' => cases h
    | ok b => exact congrArg Except.ok (injective a b (Except.ok.inj h))

theorem map_unless_error (hx : x ≠ .error e → y = x) (h : x.map f ≠ .error e) : y.map f = x.map f := by
  rw [hx]
  rintro rfl
  exact h rfl

/-- Steps one after another go as before if each does, as long as it does not fail in one way. -/
theorem bind_unless_error {g g' : α → Except ε β} (hx : x ≠ .error e → y = x)
    (hg : ∀ a, g a ≠ .error e → g' a = g a) (h : x.bind g ≠ .error e) : y.bind g' = x.bind g := by
  have first : x ≠ .error e := by
    rintro rfl
    exact h rfl
  rw [hx first]
  cases x with
  | error e' => rfl
  | ok a => exact hg a h

end Except

namespace Value

/-! ### Texts -/

/-- Whether two values have the same text, unless the first one is not read to its end. -/
def SameTextUnlessEndless : Value → Value → Prop := Agree scalarText (.error .endless)

section Texts
variable {α : Type} {items : List α} {f g : α → Value}

theorem scalarTexts_congr (h : ∀ a ∈ items, SameTextUnlessEndless (f a) (g a))
    (ends : scalarTexts (items.map f) ≠ .error .endless) :
    scalarTexts (items.map g) = scalarTexts (items.map f) := by
  induction items with
  | nil => rfl
  | cons a rest ih =>
    obtain ⟨first, others⟩ := List.forall_mem_cons.mp h
    rw [List.map_cons, scalarTexts_cons] at ends
    rw [List.map_cons, List.map_cons, scalarTexts_cons, scalarTexts_cons]
    exact bind_unless_error first (fun _ => map_unless_error (ih others)) ends

theorem list_congr (h : ∀ a ∈ items, SameTextUnlessEndless (f a) (g a)) :
    SameTextUnlessEndless (.list (items.map f)) (.list (items.map g)) := by
  intro ends
  rw [scalarText] at ends
  rw [scalarText, scalarText]
  exact map_unless_error (scalarTexts_congr h) ends

theorem exists_of_scalarTexts_endless (h : scalarTexts (items.map f) = .error .endless) :
    ∃ a ∈ items, scalarText (f a) = .error .endless := by
  induction items with
  | nil => cases h
  | cons a rest ih =>
    rw [List.map_cons, scalarTexts_cons] at h
    cases hfirst : scalarText (f a) with
    | error e =>
      rw [hfirst] at h
      cases h
      exact ⟨a, List.mem_cons_self, hfirst⟩
    | ok s =>
      rw [hfirst] at h
      obtain ⟨b, member, endless⟩ := ih (eq_error_of_map h)
      exact ⟨b, List.mem_cons_of_mem _ member, endless⟩

/-- A list that is not read to its end has an item that is not. -/
theorem exists_of_list_endless (h : (Value.list (items.map f)).scalarText = .error .endless) :
    ∃ a ∈ items, scalarText (f a) = .error .endless := by
  rw [scalarText] at h
  exact exists_of_scalarTexts_endless (eq_error_of_map h)

theorem hasText_of_mem {v : Value} {vs : List Value} (h : (Value.list vs).HasText) (member : v ∈ vs) : v.HasText := by
  rw [HasText, scalarText, exists_map_eq_ok] at h
  induction vs with
  | nil => cases member
  | cons first rest ih =>
    rw [scalarTexts_cons, exists_bind_eq_ok] at h
    obtain ⟨s, hfirst, hrest⟩ := h
    rcases List.mem_cons.mp member with rfl | member
    · exact ⟨s, hfirst⟩
    · exact ih (exists_map_eq_ok.mp hrest) member

end Texts

/-! ### Atoms -/

/-- Whether nothing in a value is endless. -/
def Ends (v : Value) : Prop := .endless ∉ atoms v

theorem ends_of_atom {v : Value} (atom : atoms v = [v]) (present : v ≠ .endless) : v.Ends := by
  rw [Ends, atom]
  exact fun member => present (List.mem_singleton.mp member).symm

theorem ends_items {items : List Value} : .endless ∉ atomsOfItems items ↔ ∀ v ∈ items, v.Ends := by
  induction items with
  | nil => exact ⟨fun _ => List.forall_mem_nil _, fun _ => nofun⟩
  | cons v rest ih =>
    rw [atomsOfItems, List.mem_append, not_or, ih]
    exact (List.forall_mem_cons (p := Ends)).symm

theorem ends_entries {entries : List (Value × Value)} :
    .endless ∉ atomsOfEntries entries ↔ ∀ e ∈ entries, e.1.Ends ∧ e.2.Ends := by
  induction entries with
  | nil => exact ⟨fun _ => List.forall_mem_nil _, fun _ => nofun⟩
  | cons e rest ih =>
    rw [atomsOfEntries, List.mem_append, List.mem_append, not_or, not_or, ih]
    exact (List.forall_mem_cons (p := fun e : Value × Value => e.1.Ends ∧ e.2.Ends)).symm

mutual

theorem endless_mem_atoms_of_printed {v : Value} (h : printed v = .error .endless) : .endless ∈ atoms v := by
  match v with
  | null | bool _ | float _ | nan _ | text _ | bytes _ | date _ | moment _ | again _ =>
    rw [printed] at h
    cases h
  | int n =>
    rw [printed] at h
    split at h <;> cases h
  | endless => exact List.mem_singleton_self _
  | list items | tuple items | set items =>
    rw [printed] at h
    rw [atoms]
    exact endless_mem_atoms_of_printedItems (eq_error_of_map h)
  | mapping entries =>
    rw [printed] at h
    rw [atoms]
    exact endless_mem_atoms_of_printedEntries (eq_error_of_map h)

theorem endless_mem_atoms_of_printedItems {items : List Value} (h : printedItems items = .error .endless) :
    .endless ∈ atomsOfItems items := by
  match items with
  | [] =>
    rw [printedItems] at h
    cases h
  | v :: rest =>
    rw [printedItems_cons] at h
    rw [atomsOfItems, List.mem_append]
    cases hv : printed v with
    | error e =>
      rw [hv] at h
      cases h
      exact Or.inl (endless_mem_atoms_of_printed hv)
    | ok s =>
      rw [hv] at h
      exact Or.inr (endless_mem_atoms_of_printedItems (eq_error_of_map h))

theorem endless_mem_atoms_of_printedEntries {entries : List (Value × Value)}
    (h : printedEntries entries = .error .endless) : .endless ∈ atomsOfEntries entries := by
  match entries with
  | [] =>
    rw [printedEntries] at h
    cases h
  | (k, v) :: rest =>
    rw [printedEntries_cons] at h
    rw [atomsOfEntries, List.mem_append, List.mem_append]
    cases hk : printed k with
    | error e =>
      rw [hk] at h
      cases h
      exact Or.inl (Or.inl (endless_mem_atoms_of_printed hk))
    | ok s =>
      rw [hk] at h
      cases hv : printed v with
      | error e =>
        rw [hv] at h
        cases h
        exact Or.inl (Or.inr (endless_mem_atoms_of_printed hv))
      | ok t =>
        rw [hv] at h
        exact Or.inr (endless_mem_atoms_of_printedEntries (eq_error_of_map h))

end

mutual

/-- What is not read to its end has the marker in it. -/
theorem endless_mem_atoms {v : Value} (h : scalarText v = .error .endless) : .endless ∈ atoms v := by
  match v with
  | null | bool _ | date _ | moment _ | text _ =>
    rw [scalarText] at h
    cases h
  | list items =>
    rw [scalarText] at h
    rw [atoms]
    exact endless_mem_atoms_of_scalarTexts (eq_error_of_map h)
  | int _ | float _ | nan _ | bytes _ | tuple _ | set _ | mapping _ | again _ | endless =>
    simp only [scalarText] at h
    exact endless_mem_atoms_of_printed h

theorem endless_mem_atoms_of_scalarTexts {items : List Value} (h : scalarTexts items = .error .endless) :
    .endless ∈ atomsOfItems items := by
  match items with
  | [] =>
    rw [scalarTexts] at h
    cases h
  | v :: rest =>
    rw [scalarTexts_cons] at h
    rw [atomsOfItems, List.mem_append]
    cases hv : scalarText v with
    | error e =>
      rw [hv] at h
      cases h
      exact Or.inl (endless_mem_atoms hv)
    | ok s =>
      rw [hv] at h
      exact Or.inr (endless_mem_atoms_of_scalarTexts (eq_error_of_map h))

end

theorem Ends.scalarText_ne {v : Value} (ends : v.Ends) : v.scalarText ≠ .error .endless :=
  fun h => ends (endless_mem_atoms h)

end Value

end LocaleLint
