import LocaleLint.Proofs.Value.Text
import LocaleLint.Tree.Build

/-! # Where a loaded mapping is at fault

The entries of a loaded mapping and of the mappings below it stand in one order, an entry before what is
below it. Each of them can be judged by itself, and the first one that is at fault decides why there is no
tree; without such an entry there is one. -/

namespace LocaleLint

/-- Whether two values have the same text. -/
def Value.SameText (v w : Value) : Prop := ∃ s, v.scalarText = .ok s ∧ w.scalarText = .ok s

/-- An entry of a loaded mapping or of a mapping below it. -/
structure Value.Slot where
  /-- The keys on the way to the mapping of the entry. -/
  path : List Value
  /-- The keys of the entries before it in its mapping. -/
  earlier : List Value
  key : Value
  value : Value

namespace Value.Slot

/-- An entry seen from the mapping around its own, where that one stands at a key. -/
def below (key : Value) (p : Slot) : Slot := { p with path := key :: p.path }

/-- The text of a value as a key, empty where it has none. -/
def keyText (v : Value) : String := (v.scalarText.toOption.map String.ofList).getD ""

/-- The dotted key of an entry below a dotted key. -/
def dottedKey (parent : String) (p : Slot) : String := dottedFrom parent ((p.path ++ [p.key]).map keyText)

/-- Whether the key of an entry has the text of the key of an earlier entry of its mapping. -/
def Repeats (p : Slot) : Prop := ∃ k ∈ p.earlier, SameText k p.key

instance (k l : Value) : Decidable (SameText k l) :=
  show Decidable (∃ s, k.scalarText = .ok s ∧ l.scalarText = .ok s) from
  match k.scalarText, l.scalarText with
  | .ok s, .ok t =>
    if same : s = t then isTrue ⟨s, rfl, same ▸ rfl⟩
    else isFalse fun ⟨_, hs, ht⟩ => same ((Except.ok.inj hs).trans (Except.ok.inj ht).symm)
  | .error _, _ => isFalse fun ⟨_, hs, _⟩ => nomatch hs
  | .ok _, .error _ => isFalse fun ⟨_, _, ht⟩ => nomatch ht

instance : DecidablePred Repeats := fun p =>
  inferInstanceAs (Decidable (∃ k ∈ p.earlier, SameText k p.key))

/-- Why a value cannot stand in a tree; the entries of a mapping are judged by themselves. -/
def valueFault? : Value → Option BuildError
  | .mapping _ => none
  | v =>
    match v.scalarText with
    | .ok _ => none
    | .error e => some (.coercion e)

/-- The fault of an entry below a dotted key: its key has no text, or the text of an earlier one, or its
    value has no text. -/
def fault? (parent : String) (p : Slot) : Option BuildError :=
  match p.key.scalarText with
  | .error e => some (.coercion e)
  | .ok _ => if p.Repeats then some (.duplicateKey (p.dottedKey parent)) else valueFault? p.value

end Value.Slot

namespace Value

mutual

/-- The entries of a value and of the mappings below it that are reached through mappings only. -/
def slots : Value → List Slot
  | mapping entries => slotsAfter [] entries
  | _ => []

/-- The entries after some keys of a mapping with those below them. -/
def slotsAfter (earlier : List Value) : List (Value × Value) → List Slot
  | [] => []
  | (k, v) :: rest => ⟨[], earlier, k, v⟩ :: ((slots v).map (Slot.below k) ++ slotsAfter (earlier ++ [k]) rest)

end

end Value

namespace Tree
open Value Value.Slot

/-- The first fault below a dotted key among some entries. -/
def firstFault? (parent : String) (slots : List Slot) : Option BuildError := slots.findSome? (fault? parent)

theorem keyText_of_ok {k : Value} {s : List Char} (h : k.scalarText = .ok s) : keyText k = String.ofList s := by
  rw [keyText, h]
  rfl

theorem fault?_below {parent : String} {k : Value} (p : Slot) :
    fault? parent (p.below k) = fault? (joinKey parent (keyText k)) p := by
  have dotted : (p.below k).dottedKey parent = p.dottedKey (joinKey parent (keyText k)) := rfl
  simp only [fault?, dotted]
  rfl

theorem firstFault?_below {parent : String} {k : Value} (ps : List Slot) :
    firstFault? parent (ps.map (Slot.below k)) = firstFault? (joinKey parent (keyText k)) ps := by
  rw [firstFault?, List.findSome?_map]
  exact congrArg (List.findSome? · ps) (funext fault?_below)

/-- How a result agrees with the fault that was found. -/
def Agrees {α : Type} (result : Except BuildError α) (fault : Option BuildError) : Prop :=
  match result with
  | .ok _ => fault = none
  | .error e => fault = some e

/-- The texts of earlier keys. -/
def Taken (taken : List String) (earlier : List Value) : Prop :=
  ∀ s, String.ofList s ∈ taken ↔ ∃ k ∈ earlier, k.scalarText = .ok s

theorem Taken.nil : Taken [] [] := fun _ => by simp

theorem Taken.append {taken : List String} {earlier : List Value} {k : Value} {s : List Char} (h : Taken taken earlier)
    (hk : k.scalarText = .ok s) : Taken (String.ofList s :: taken) (earlier ++ [k]) := by
  intro t
  rw [List.mem_cons, h t, String.ofList_inj]
  constructor
  · rintro (rfl | ⟨l, hmem, htext⟩)
    · exact ⟨k, List.mem_append_right _ (List.mem_singleton_self k), hk⟩
    · exact ⟨l, List.mem_append_left _ hmem, htext⟩
  · rintro ⟨l, hmem, htext⟩
    rcases List.mem_append.mp hmem with hmem | hmem
    · exact Or.inr ⟨l, hmem, htext⟩
    · rw [List.mem_singleton.mp hmem, hk] at htext
      exact Or.inl (Except.ok.inj htext).symm

theorem Taken.repeats_iff {taken : List String} {p : Slot} {s : List Char} (h : Taken taken p.earlier)
    (hk : p.key.scalarText = .ok s) : String.ofList s ∈ taken ↔ p.Repeats := by
  simp only [h s, Repeats, SameText]
  rw [hk]
  constructor
  · rintro ⟨k, hmem, htext⟩
    exact ⟨k, hmem, s, htext, rfl⟩
  · rintro ⟨k, hmem, t, htext, same⟩
    exact ⟨k, hmem, htext.trans same.symm⟩

theorem slots_of_not_mapping {v : Value} (h : ∀ entries, v ≠ .mapping entries) : v.slots = [] := by
  rw [Value.slots]
  exact h

theorem agrees_of_not_mapping {key : String} {v : Value} (h : ∀ entries, v ≠ .mapping entries) :
    Agrees (ofValue key v) ((valueFault? v).or (firstFault? key v.slots)) := by
  rw [ofValue, valueFault?, slots_of_not_mapping h]
  · cases v.scalarText <;> rfl
  · exact h
  · exact h

/-- What an entry and all below it are judged together. -/
theorem firstFault?_slotsAfter {parent : String} {earlier : List Value} {k v : Value} {rest : List (Value × Value)} :
    firstFault? parent (slotsAfter earlier ((k, v) :: rest)) =
      (fault? parent ⟨[], earlier, k, v⟩).or ((firstFault? (joinKey parent (keyText k)) v.slots).or
        (firstFault? parent (slotsAfter (earlier ++ [k]) rest))) := by
  rw [slotsAfter, firstFault?, List.findSome?_cons, List.findSome?_append]
  rw [← firstFault?, firstFault?_below, ← firstFault?]
  cases fault? parent ⟨[], earlier, k, v⟩ <;> rfl

mutual

theorem ofValue_agrees (key : String) (v : Value) :
    Agrees (ofValue key v) ((valueFault? v).or (firstFault? key v.slots)) := by
  match v with
  | .mapping entries =>
    have h := ofEntries_agrees key [] [] entries Taken.nil
    rw [ofValue]
    cases hbuild : ofEntries key [] entries with
    | ok m =>
      rw [hbuild] at h
      exact h
    | error e =>
      rw [hbuild] at h
      exact h
  | .null | .bool _ | .int _ | .float _ | .nan _ | .text _ | .bytes _ | .date _ | .moment _ | .list _ | .tuple _
  | .set _ | .again _ | .endless => exact agrees_of_not_mapping fun _ => nofun

theorem ofEntries_agrees (parent : String) (taken : List String) (earlier : List Value)
    (entries : List (Value × Value)) (h : Taken taken earlier) :
    Agrees (ofEntries parent taken entries) (firstFault? parent (slotsAfter earlier entries)) := by
  match entries with
  | [] =>
    rw [ofEntries]
    rfl
  | (k, v) :: rest =>
    rw [ofEntries, firstFault?_slotsAfter, fault?]
    cases hk : k.scalarText with
    | error e => rfl
    | ok s =>
      have member : keyText k ∈ taken ↔ Repeats ⟨[], earlier, k, v⟩ := by
        rw [keyText_of_ok hk]
        exact h.repeats_iff (p := ⟨[], earlier, k, v⟩) hk
      simp only [← keyText_of_ok hk]
      by_cases repeats : Repeats ⟨[], earlier, k, v⟩
      · rw [if_pos (member.mpr repeats), if_pos repeats]
        rfl
      · rw [if_neg (mt member.mp repeats), if_neg repeats, ← Option.or_assoc]
        -- What is below an entry comes before the entries after it, as in the tree that is built.
        have value := ofValue_agrees (joinKey parent (keyText k)) v
        cases hv : ofValue (joinKey parent (keyText k)) v with
        | error e =>
          rw [hv] at value
          rw [show (valueFault? v).or _ = some e from value]
          rfl
        | ok tree =>
          rw [hv] at value
          rw [show (valueFault? v).or _ = none from value, Option.none_or]
          have others := ofEntries_agrees parent (keyText k :: taken) (earlier ++ [k]) rest
            (keyText_of_ok hk ▸ h.append hk)
          cases hrest : ofEntries parent (keyText k :: taken) rest with
          | error e =>
            rw [hrest] at others
            exact others
          | ok m =>
            rw [hrest] at others
            exact others

end

/-! ### Trees and faults -/

section Build
variable {entries : List (Value × Value)} {parent : String} {e : BuildError}

theorem build_agrees (entries : List (Value × Value)) (parent : String) :
    Agrees (build entries parent) (firstFault? parent (Value.mapping entries).slots) := by
  rw [Value.slots]
  exact ofEntries_agrees parent [] [] entries Taken.nil

theorem build_isOk : (∃ tree, build entries parent = .ok tree) ↔
    firstFault? parent (Value.mapping entries).slots = none := by
  have h := build_agrees entries parent
  cases hbuild : build entries parent with
  | ok tree =>
    rw [hbuild] at h
    exact ⟨fun _ => h, fun _ => ⟨tree, rfl⟩⟩
  | error e =>
    rw [hbuild] at h
    exact ⟨fun ⟨_, h⟩ => (by cases h), fun none => (by cases none.symm.trans h)⟩

theorem build_eq_error : build entries parent = .error e ↔
    firstFault? parent (Value.mapping entries).slots = some e := by
  have h := build_agrees entries parent
  cases hbuild : build entries parent with
  | ok tree =>
    rw [hbuild] at h
    exact ⟨fun h => (by cases h), fun some => (by cases some.symm.trans h)⟩
  | error e' =>
    rw [hbuild] at h
    exact ⟨fun same => Except.error.inj same ▸ h, fun some => congrArg Except.error (Option.some.inj (h.symm.trans some))⟩

end Build

end Tree

/-! ### What an entry is at fault for -/

namespace Value.Slot
variable {parent : String} {p : Slot}

/-- Whether the key of an entry has a text, and its value unless it is a mapping. -/
structure Legible (p : Slot) : Prop where
  key : p.key.HasText
  value : (∃ entries, p.value = .mapping entries) ∨ p.value.HasText

/-- Whether an entry is not at fault: it has its texts, and that of its key is its own. -/
structure Sound (p : Slot) : Prop extends Legible p where
  new : ¬ p.Repeats

/-- Whether an entry is at fault because its key has no text, or because its value has none. -/
def Textless (p : Slot) : Prop :=
  p.key.Textless ∨ ¬ p.Repeats ∧ (∀ entries, p.value ≠ .mapping entries) ∧ p.value.Textless

theorem key_hasText_of_repeats (h : p.Repeats) : p.key.HasText := by
  obtain ⟨_, _, s, _, hs⟩ := h
  exact ⟨s, hs⟩

theorem valueFault?_of_not_mapping {v : Value} (h : ∀ entries, v ≠ .mapping entries) :
    valueFault? v = match v.scalarText with | .ok _ => none | .error e => some (.coercion e) := by
  rw [valueFault?]
  exact h

theorem valueFault?_eq_none {v : Value} : valueFault? v = none ↔ (∃ entries, v = .mapping entries) ∨ v.HasText := by
  by_cases h : ∃ entries, v = .mapping entries
  · obtain ⟨entries, rfl⟩ := h
    exact ⟨fun _ => Or.inl ⟨entries, rfl⟩, fun _ => rfl⟩
  · rw [valueFault?_of_not_mapping fun entries hv => h ⟨entries, hv⟩, Value.HasText]
    cases v.scalarText with
    | ok s => exact ⟨fun _ => Or.inr ⟨s, rfl⟩, fun _ => rfl⟩
    | error e => exact ⟨fun h => (by cases h), fun h'' => h''.elim (absurd · h) fun ⟨_, hs⟩ => (by cases hs)⟩

theorem exists_coercion_of_valueFault? {v : Value} {e : BuildError} (h : valueFault? v = some e) :
    (∀ entries, v ≠ .mapping entries) ∧ v.Textless ∧ ∃ cause, e = .coercion cause := by
  have other : ∀ entries, v ≠ .mapping entries := by
    rintro entries rfl
    cases h
  rw [valueFault?_of_not_mapping other] at h
  cases htext : v.scalarText with
  | ok s =>
    rw [htext] at h
    cases h
  | error cause =>
    rw [htext] at h
    exact ⟨other, textless_of_error htext, cause, (Option.some.inj h).symm⟩

theorem fault?_eq_none : p.fault? parent = none ↔ p.Sound := by
  rw [fault?]
  cases hkey : p.key.scalarText with
  | error e => exact ⟨fun h => (by cases h), fun h => absurd h.key (textless_iff.mp (textless_of_error hkey))⟩
  | ok s =>
    by_cases repeats : p.Repeats
    · rw [if_pos repeats]
      exact ⟨fun h => (by cases h), fun h => absurd repeats h.new⟩
    · rw [if_neg repeats, valueFault?_eq_none]
      exact ⟨fun h => ⟨⟨⟨s, hkey⟩, h⟩, repeats⟩, fun h => h.value⟩

theorem fault?_of_repeats (h : p.Repeats) : p.fault? parent = some (.duplicateKey (p.dottedKey parent)) := by
  obtain ⟨s, hs⟩ := key_hasText_of_repeats h
  rw [fault?, hs]
  exact if_pos h

/-- An entry that is at fault either repeats a key or has no text somewhere. -/
theorem fault?_eq_some {e : BuildError} (h : p.fault? parent = some e) :
    (p.Repeats ∧ e = .duplicateKey (p.dottedKey parent)) ∨ (p.Textless ∧ ∃ cause, e = .coercion cause) := by
  by_cases repeats : p.Repeats
  · rw [fault?_of_repeats repeats] at h
    exact Or.inl ⟨repeats, (Option.some.inj h).symm⟩
  · rw [fault?] at h
    cases hkey : p.key.scalarText with
    | error cause =>
      rw [hkey] at h
      exact Or.inr ⟨Or.inl (textless_of_error hkey), cause, (Option.some.inj h).symm⟩
    | ok s =>
      rw [hkey] at h
      simp only [if_neg repeats] at h
      obtain ⟨other, textless, he⟩ := exists_coercion_of_valueFault? h
      exact Or.inr ⟨Or.inr ⟨repeats, other, textless⟩, he⟩

theorem not_sound_of_textless (h : p.Textless) : ¬ p.Sound := by
  intro sound
  rcases h with h | ⟨-, other, h⟩
  · exact textless_iff.mp h sound.key
  · rcases sound.value with ⟨entries, hv⟩ | text
    · exact other entries hv
    · exact textless_iff.mp h text

theorem not_repeats_of_textless (h : p.Textless) : ¬ p.Repeats := by
  intro repeats
  rcases h with h | ⟨h, -⟩
  · exact textless_iff.mp h (key_hasText_of_repeats repeats)
  · exact h repeats

theorem not_legible_of_textless (h : p.Textless) : ¬ p.Legible :=
  fun legible => not_sound_of_textless h ⟨legible, not_repeats_of_textless h⟩

theorem exists_coercion_iff : (∃ cause, p.fault? parent = some (.coercion cause)) ↔ p.Textless := by
  constructor
  · rintro ⟨cause, h⟩
    rcases fault?_eq_some h with ⟨-, h⟩ | ⟨textless, -⟩
    · cases h
    · exact textless
  · intro textless
    obtain ⟨e, he⟩ := Option.ne_none_iff_exists'.mp (mt fault?_eq_none.mp (not_sound_of_textless textless))
    rcases fault?_eq_some he with ⟨repeats, -⟩ | ⟨-, cause, rfl⟩
    · exact absurd repeats (not_repeats_of_textless textless)
    · exact ⟨cause, he⟩

theorem fault?_eq_duplicateKey {key : String} :
    p.fault? parent = some (.duplicateKey key) ↔ p.Repeats ∧ key = p.dottedKey parent := by
  constructor
  · intro h
    rcases fault?_eq_some h with ⟨repeats, same⟩ | ⟨-, cause, same⟩
    · exact ⟨repeats, BuildError.duplicateKey.inj same⟩
    · cases same
  · rintro ⟨repeats, rfl⟩
    exact fault?_of_repeats repeats

end Value.Slot

namespace Tree
open Value Value.Slot
variable {parent : String} {slots : List Slot}

theorem firstFault?_eq_none : firstFault? parent slots = none ↔ ∀ p ∈ slots, p.Sound := by
  simp only [firstFault?, List.findSome?_eq_none_iff, fault?_eq_none]

/-! ### The entries of a mapping and those below them -/

theorem legible_slotsAfter {earlier : List Value} {entries : List (Value × Value)} :
    (∀ p ∈ slotsAfter earlier entries, p.Legible) ↔
      ∀ e ∈ entries, (e.1.HasText ∧ ((∃ inner, e.2 = .mapping inner) ∨ e.2.HasText)) ∧ ∀ p ∈ e.2.slots, p.Legible := by
  induction entries generalizing earlier with
  | nil => exact ⟨fun _ => List.forall_mem_nil _, fun _ => by rw [slotsAfter]; exact List.forall_mem_nil _⟩
  | cons entry rest ih =>
    obtain ⟨k, v⟩ := entry
    have below : ∀ p : Slot, (p.below k).Legible ↔ p.Legible := fun p => ⟨fun h => ⟨h.key, h.value⟩, fun h => ⟨h.key, h.value⟩⟩
    have first : Legible ⟨[], earlier, k, v⟩ ↔ k.HasText ∧ ((∃ inner, v = .mapping inner) ∨ v.HasText) :=
      ⟨fun h => ⟨h.key, h.value⟩, fun h => ⟨h.1, h.2⟩⟩
    rw [slotsAfter, List.forall_mem_cons, List.forall_mem_append, List.forall_mem_map, ih, List.forall_mem_cons, first]
    simp only [below, and_assoc]

theorem new_slotsAfter {earlier : List Value} {entries : List (Value × Value)} :
    (∀ p ∈ slotsAfter earlier entries, ¬ p.Repeats) ↔
      (∀ k ∈ earlier, ∀ e ∈ entries, ¬ SameText k e.1) ∧ (entries.map (·.1)).Pairwise (fun k l => ¬ SameText k l) ∧
        ∀ e ∈ entries, ∀ p ∈ e.2.slots, ¬ p.Repeats := by
  induction entries generalizing earlier with
  | nil =>
    refine ⟨fun _ => ⟨fun _ _ => List.forall_mem_nil _, List.Pairwise.nil, List.forall_mem_nil _⟩, fun _ => ?_⟩
    rw [slotsAfter]
    exact List.forall_mem_nil _
  | cons entry rest ih =>
    obtain ⟨k, v⟩ := entry
    have below : ∀ p : Slot, (p.below k).Repeats ↔ p.Repeats := fun _ => Iff.rfl
    rw [slotsAfter, List.forall_mem_cons, List.forall_mem_append, List.forall_mem_map, ih, List.forall_mem_cons,
      List.map_cons, List.pairwise_cons, List.forall_mem_append, List.forall_mem_singleton, List.forall_mem_map]
    simp only [below]
    constructor
    · rintro ⟨first, value, ⟨before, here⟩, keys, others⟩
      refine ⟨fun l hl => List.forall_mem_cons.mpr ⟨fun same => first ⟨l, hl, same⟩, before l hl⟩, ⟨here, keys⟩, value,
        others⟩
    · rintro ⟨before, ⟨here, keys⟩, value, others⟩
      refine ⟨fun ⟨l, hl, same⟩ => before l hl _ List.mem_cons_self same, value,
        ⟨fun l hl e he => before l hl e (List.mem_cons_of_mem _ he), here⟩, keys, others⟩

theorem legible_slots {entries : List (Value × Value)} : (∀ p ∈ (Value.mapping entries).slots, p.Legible) ↔
    ∀ e ∈ entries, (e.1.HasText ∧ ((∃ inner, e.2 = .mapping inner) ∨ e.2.HasText)) ∧ ∀ p ∈ e.2.slots, p.Legible := by
  rw [Value.slots]
  exact legible_slotsAfter

theorem new_slots {entries : List (Value × Value)} : (∀ p ∈ (Value.mapping entries).slots, ¬ p.Repeats) ↔
    (entries.map (·.1)).Pairwise (fun k l => ¬ SameText k l) ∧ ∀ e ∈ entries, ∀ p ∈ e.2.slots, ¬ p.Repeats := by
  rw [Value.slots, new_slotsAfter]
  exact and_iff_right (List.forall_mem_nil _)

/-- There is no text for an entry, and nothing before it is at fault. -/
theorem firstFault?_coercion : (∃ cause, firstFault? parent slots = some (.coercion cause)) ↔
    ∃ before p after, slots = before ++ p :: after ∧ (∀ q ∈ before, q.Sound) ∧ p.Textless := by
  simp only [firstFault?, List.findSome?_eq_some_iff, fault?_eq_none]
  constructor
  · rintro ⟨cause, before, p, after, split, fault, sound⟩
    exact ⟨before, p, after, split, sound, exists_coercion_iff.mp ⟨cause, fault⟩⟩
  · rintro ⟨before, p, after, split, sound, textless⟩
    obtain ⟨cause, fault⟩ := exists_coercion_iff.mpr textless
    exact ⟨cause, before, p, after, split, fault, sound⟩

/-- A key comes again, and nothing before it is at fault. -/
theorem firstFault?_duplicateKey {key : String} : firstFault? parent slots = some (.duplicateKey key) ↔
    ∃ before p after, slots = before ++ p :: after ∧ (∀ q ∈ before, q.Sound) ∧ p.Repeats ∧ key = p.dottedKey parent := by
  simp only [firstFault?, List.findSome?_eq_some_iff, fault?_eq_none, fault?_eq_duplicateKey]
  constructor
  · rintro ⟨before, p, after, split, ⟨repeats, same⟩, sound⟩
    exact ⟨before, p, after, split, sound, repeats, same⟩
  · rintro ⟨before, p, after, split, sound, repeats, same⟩
    exact ⟨before, p, after, split, ⟨repeats, same⟩, sound⟩

end Tree

end LocaleLint
