import LocaleLint.Logging.Settings

/-! # Configurations that give settings

A configuration gives logging settings if it is a mapping, its logging section is a mapping or counts as absent, the
level is that of a name or a number of a level, and the template of lines counts as absent or holds a field. The time
stamp may be anything. -/

namespace LocaleLint.Logging

/-- Whether entries are those of the logging section of a configuration with the entries `top`. -/
inductive IsSection (top : List (Value × Value)) : List (Value × Value) → Prop
  /-- There is no section, or it counts as absent. -/
  | absent (blank : ∀ v, named? top "logging" = some v → v.isBlank = true) : IsSection top []
  | own {entries : List (Value × Value)} (holds : named? top "logging" = some (.mapping entries)) : IsSection top entries
  /-- The section is the configuration itself. -/
  | itself (holds : named? top "logging" = some .endless) : IsSection top top

/-- Whether a value is the name of a level or the same key as the number of one. -/
def IsLevel (v : Value) : Prop :=
  ∃ level ∈ levelNames, v = .text level.1 ∨ Value.sameKey (.int level.2) v = true

/-- Whether a value counts as absent, or is a text with a well-formed field. -/
def IsFormat (v : Value) : Prop :=
  v.isBlank = true ∨ ∃ s before rest, v = .text s ∧ s.toList = before ++ rest ∧ fieldStarts rest = true

/-- Whether a configuration gives settings. -/
def Usable (config : Value) : Prop :=
  ∃ top entries, config = .mapping top ∧ IsSection top entries ∧
    IsLevel ((named? entries "level").getD (.int Settings.standard.level)) ∧
    IsFormat ((named? entries "format").getD (.text Settings.standard.format))

/-! ### Levels -/

theorem exists_find_eq_some {α β : Type} {p : α → Bool} {f : α → β} {l : List α} :
    (∃ b, (l.find? p).map f = some b) ↔ ∃ a ∈ l, p a = true := by
  rw [← Option.isSome_iff_exists, Option.isSome_map, List.find?_isSome]

theorem isLevel_iff {v : Value} : (∃ n, levelNumber? v = some n) ↔ IsLevel v := by
  by_cases text : ∃ s, v = .text s
  · obtain ⟨s, rfl⟩ := text
    have number : ∀ n : Nat, Value.sameKey (.int n) (.text s) = false := fun _ => rfl
    rw [levelNumber?, exists_find_eq_some, IsLevel]
    refine exists_congr fun level => and_congr_right fun _ => ?_
    rw [number, or_iff_left Bool.false_ne_true, Value.text.injEq, beq_iff_eq, eq_comm]
  · have other : levelNumber? v = (levelNames.find? fun level => Value.sameKey (.int level.2) v).map (·.2) := by
      rw [levelNumber?]
      exact fun s h => text ⟨s, h⟩
    rw [other, exists_find_eq_some, IsLevel]
    refine exists_congr fun level => and_congr_right fun _ => ?_
    rw [or_iff_right fun h => text ⟨level.1, h⟩]

/-- What is no key is no level. -/
theorem isKey_of_levelNumber? {v : Value} {n : Nat} (h : levelNumber? v = some n) : isKey v = true := by
  cases v with
  | list _ | tuple _ | set _ | mapping _ | again _ | endless => cases h
  | _ => rfl

theorem findLevel_eq_ok {v : Value} {n : Nat} : findLevel v = .ok (some n) ↔ levelNumber? v = some n := by
  constructor
  · intro h
    rw [findLevel] at h
    split at h
    · cases h
    cases found : levelNumber? v with
    | some m =>
      rw [found] at h
      cases h
      rfl
    | none =>
      rw [found] at h
      cases name : callName? v with
      | none =>
        rw [name] at h
        cases h
      | some w =>
        rw [name] at h
        dsimp only at h
        split at h <;> cases h
  · intro h
    rw [findLevel, isKey_of_levelNumber? h, h]
    rfl

/-! ### Templates -/

theorem formatOf_isOk {v : Value} : (∃ format, formatOf v = .ok format) ↔ IsFormat v := by
  unfold formatOf IsFormat
  by_cases blank : v.isBlank = true
  · rw [if_pos blank]
    exact iff_of_true ⟨_, rfl⟩ (Or.inl blank)
  rw [if_neg blank, or_iff_right blank]
  cases v with
  | text s =>
    dsimp only
    by_cases template : isTemplate s.toList = true
    · obtain ⟨before, rest, split, field⟩ := Text.searches_eq_true_iff.mp template
      rw [if_pos template]
      exact iff_of_true ⟨s, rfl⟩ ⟨s, before, rest, rfl, split, field⟩
    · rw [if_neg template]
      refine iff_of_false nofun ?_
      rintro ⟨_, before, rest, ⟨⟩, split, field⟩
      exact template (Text.searches_eq_true_iff.mpr ⟨before, rest, split, field⟩)
  | _ => exact iff_of_false nofun nofun

/-! ### Sections -/

theorem sectionOf_eq_ok {config : Value} {entries : List (Value × Value)} :
    sectionOf config = .ok entries ↔ ∃ top, config = .mapping top ∧ IsSection top entries := by
  constructor
  · intro h
    unfold sectionOf at h
    split at h
    · rename_i top
      refine ⟨top, rfl, ?_⟩
      split at h
      · rename_i none
        cases h
        exact .absent fun v found => nomatch none.symm.trans found
      · rename_i own
        cases h
        exact .own own
      · rename_i itself
        cases h
        exact .itself itself
      · rename_i v _ _ found
        split at h
        · rename_i blank
          cases h
          exact .absent fun w same => Option.some.inj (found.symm.trans same) ▸ blank
        · cases h
    · cases h
  · rintro ⟨top, rfl, absent | own | itself⟩
    · cases found : named? top "logging" with
      | none => rw [sectionOf, found]
      | some v =>
        have blank := absent v found
        unfold sectionOf
        simp only [found]
        cases v with
        | mapping entries =>
          cases entries with
          | nil => rfl
          | cons e rest => cases blank
        | endless => cases blank
        | _ => exact if_pos blank
    · rw [sectionOf, own]
    · rw [sectionOf, itself]

namespace Settings

theorem ofSection_isOk {entries : List (Value × Value)} : (∃ settings, ofSection entries = .ok settings) ↔
    IsLevel ((named? entries "level").getD (.int standard.level)) ∧
      IsFormat ((named? entries "format").getD (.text standard.format)) := by
  rw [← isLevel_iff, ← formatOf_isOk, ofSection]
  simp only [← findLevel_eq_ok]
  cases findLevel ((named? entries "level").getD (.int standard.level)) with
  | error e => exact iff_of_false nofun nofun
  | ok level? =>
    cases formatOf ((named? entries "format").getD (.text standard.format)) with
    | error e => exact iff_of_false nofun nofun
    | ok format =>
      cases level? with
      | none => exact iff_of_false nofun nofun
      | some level => exact iff_of_true ⟨_, rfl⟩ ⟨⟨level, rfl⟩, format, rfl⟩

/-- A configuration gives settings exactly if it is usable. -/
theorem ofConfig_isOk_iff {config : Value} : (∃ settings, ofConfig config = .ok settings) ↔ Usable config := by
  rw [ofConfig]
  cases found : sectionOf config with
  | error e =>
    refine iff_of_false nofun ?_
    rintro ⟨top, entries, form, isSection, -⟩
    cases found.symm.trans (sectionOf_eq_ok.mpr ⟨top, form, isSection⟩)
  | ok entries =>
    constructor
    · intro h
      obtain ⟨top, form, isSection⟩ := sectionOf_eq_ok.mp found
      exact ⟨top, entries, form, isSection, ofSection_isOk.mp h⟩
    · rintro ⟨top, others, form, isSection, fits⟩
      cases found.symm.trans (sectionOf_eq_ok.mpr ⟨top, form, isSection⟩)
      exact ofSection_isOk.mpr fits

end Settings

end LocaleLint.Logging
