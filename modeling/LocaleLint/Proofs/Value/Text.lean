import LocaleLint.Value.Scalar

/-! # Which values have a text

A value has a text unless something inside it cannot be written: an integer of too many digits, or the
marker of a container that is read inside itself. What a value is inside of makes no difference. -/

namespace LocaleLint.Value

/-- Whether a value has a text. -/
def HasText (v : Value) : Prop := ∃ s, v.scalarText = .ok s

/-- Whether a value that holds no others cannot be written. -/
def IsUnwritable : Value → Prop
  | int n => Nat.pow 10 Numeral.greatestLength ≤ n.natAbs
  | endless => True
  | _ => False

mutual

/-- The values inside a value that hold no others. -/
def atoms : Value → List Value
  | list items | tuple items | set items => atomsOfItems items
  | mapping entries => atomsOfEntries entries
  | v => [v]

/-- The values inside some values that hold no others. -/
def atomsOfItems : List Value → List Value
  | [] => []
  | v :: rest => atoms v ++ atomsOfItems rest

/-- The values inside the keys and values of entries that hold no others. -/
def atomsOfEntries : List (Value × Value) → List Value
  | [] => []
  | (k, v) :: rest => atoms k ++ atoms v ++ atomsOfEntries rest

end

/-- Whether everything inside some values can be written. -/
def Writable (values : List Value) : Prop := ∀ a ∈ values, ¬ IsUnwritable a

/-- Whether something inside a value cannot be written. -/
def Textless (v : Value) : Prop := ∃ a ∈ atoms v, IsUnwritable a

theorem writable_append {a b : List Value} : Writable (a ++ b) ↔ Writable a ∧ Writable b := List.forall_mem_append

theorem writable_singleton {a : Value} : Writable [a] ↔ ¬ IsUnwritable a := List.forall_mem_singleton

theorem length_decimal_le {n k : Nat} (h : 0 < k) : (Text.decimal n).length ≤ k ↔ n < Nat.pow 10 k :=
  Nat.length_toDigits_le_iff (by decide) h

theorem ofInt?_isSome {n : Int} : (∃ s, Numeral.ofInt? n = some s) ↔ ¬ IsUnwritable (int n) := by
  rw [Numeral.ofInt?, IsUnwritable, Nat.not_le, ← length_decimal_le (by decide)]
  constructor
  · rintro ⟨s, h⟩
    by_cases long : (Text.decimal n.natAbs).length > Numeral.greatestLength
    · rw [if_pos long] at h
      cases h
    · exact Nat.le_of_not_gt long
  · intro h
    exact ⟨_, if_neg (Nat.not_lt_of_le h)⟩

section Except
variable {ε α β : Type} {x : Except ε α}

theorem exists_map_eq_ok {f : α → β} : (∃ b, x.map f = .ok b) ↔ ∃ a, x = .ok a := by
  cases x with
  | ok a => exact ⟨fun _ => ⟨a, rfl⟩, fun _ => ⟨f a, rfl⟩⟩
  | error e => exact ⟨fun ⟨_, h⟩ => (by cases h), fun ⟨_, h⟩ => (by cases h)⟩

theorem exists_bind_eq_ok {f : α → Except ε β} : (∃ b, x.bind f = .ok b) ↔ ∃ a, x = .ok a ∧ ∃ b, f a = .ok b := by
  cases x with
  | ok a =>
    constructor
    · exact fun h => ⟨a, rfl, h⟩
    · rintro ⟨a', h, hb⟩
      cases h
      exact hb
  | error e => exact ⟨fun ⟨_, h⟩ => (by cases h), fun ⟨_, h, _⟩ => (by cases h)⟩

end Except

/-! ### Printed forms -/

theorem printedItems_cons (v : Value) (rest : List Value) :
    printedItems (v :: rest) = (printed v).bind fun s => (printedItems rest).map (s :: ·) := by
  rw [printedItems]
  cases printed v <;> rfl

theorem printedEntries_cons (k v : Value) (rest : List (Value × Value)) :
    printedEntries ((k, v) :: rest) = (printed k).bind fun s => (printed v).bind fun t =>
      (printedEntries rest).map ((s ++ ':' :: ' ' :: t) :: ·) := by
  rw [printedEntries]
  cases printed k with
  | error e => rfl
  | ok s => cases printed v <;> rfl

theorem scalarTexts_cons (v : Value) (rest : List Value) :
    scalarTexts (v :: rest) = (scalarText v).bind fun s => (scalarTexts rest).map (s :: ·) := by
  rw [scalarTexts]
  cases scalarText v <;> rfl

mutual

theorem printed_isOk (v : Value) : (∃ s, printed v = .ok s) ↔ Writable (atoms v) := by
  match v with
  | null | bool _ | float _ | nan _ | text _ | bytes _ | date _ | moment _ | again _ =>
    exact ⟨fun _ => writable_singleton.mpr id, fun _ => ⟨_, by rw [printed]⟩⟩
  | int n =>
    simp only [printed, atoms]
    rw [writable_singleton, ← ofInt?_isSome]
    cases h : Numeral.ofInt? n with
    | some s => exact ⟨fun _ => ⟨s, rfl⟩, fun _ => ⟨s, rfl⟩⟩
    | none => exact ⟨fun ⟨_, h⟩ => (by cases h), fun ⟨_, h⟩ => (by cases h)⟩
  | endless => exact ⟨fun ⟨_, h⟩ => (by rw [printed] at h; cases h), fun h => absurd trivial (writable_singleton.mp h)⟩
  | list items | tuple items | set items =>
    rw [printed, exists_map_eq_ok, atoms]
    exact printedItems_isOk items
  | mapping entries =>
    rw [printed, exists_map_eq_ok, atoms]
    exact printedEntries_isOk entries

theorem printedItems_isOk (items : List Value) : (∃ s, printedItems items = .ok s) ↔ Writable (atomsOfItems items) := by
  match items with
  | [] => exact ⟨fun _ => List.forall_mem_nil _, fun _ => ⟨[], by rw [printedItems]⟩⟩
  | v :: rest =>
    rw [printedItems_cons, atomsOfItems, writable_append, exists_bind_eq_ok, ← printed_isOk v, ← printedItems_isOk rest]
    simp only [exists_map_eq_ok, exists_and_right]

theorem printedEntries_isOk (entries : List (Value × Value)) :
    (∃ s, printedEntries entries = .ok s) ↔ Writable (atomsOfEntries entries) := by
  match entries with
  | [] => exact ⟨fun _ => List.forall_mem_nil _, fun _ => ⟨[], by rw [printedEntries]⟩⟩
  | (k, v) :: rest =>
    rw [printedEntries_cons, atomsOfEntries, writable_append, writable_append, exists_bind_eq_ok, ← printed_isOk k,
      ← printed_isOk v, ← printedEntries_isOk rest]
    simp only [exists_bind_eq_ok, exists_map_eq_ok, exists_and_right, and_assoc]

end

/-! ### Texts -/

theorem scalarText_text (s : String) : (text s).scalarText = .ok s.toList := by rw [scalarText]

mutual

theorem hasText_iff (v : Value) : v.HasText ↔ Writable (atoms v) := by
  match v with
  | null | bool _ | date _ | moment _ | text _ =>
    exact ⟨fun _ => writable_singleton.mpr id, fun _ => ⟨_, by rw [scalarText]⟩⟩
  | list items =>
    rw [HasText, scalarText, exists_map_eq_ok, atoms]
    exact scalarTexts_isOk items
  | int _ | float _ | nan _ | bytes _ | tuple _ | set _ | mapping _ | again _ | endless =>
    rw [HasText]
    simp only [scalarText]
    exact printed_isOk _

theorem scalarTexts_isOk (items : List Value) : (∃ s, scalarTexts items = .ok s) ↔ Writable (atomsOfItems items) := by
  match items with
  | [] => exact ⟨fun _ => List.forall_mem_nil _, fun _ => ⟨[], by rw [scalarTexts]⟩⟩
  | v :: rest =>
    rw [scalarTexts_cons, atomsOfItems, writable_append, exists_bind_eq_ok, ← hasText_iff v, ← scalarTexts_isOk rest]
    simp only [exists_map_eq_ok, exists_and_right, HasText]

end

theorem textless_iff {v : Value} : v.Textless ↔ ¬ v.HasText := by
  rw [hasText_iff, Writable, Textless]
  simp only [Classical.not_forall, Classical.not_not, exists_prop]

theorem textless_of_error {v : Value} {e : CoercionError} (h : v.scalarText = .error e) : v.Textless := by
  rw [textless_iff, HasText, h]
  rintro ⟨s, h⟩
  cases h

end LocaleLint.Value
