import LocaleLint.Proofs.Tree.Builds
import LocaleLint.Proofs.Value.Endless
import LocaleLint.Proofs.Value.Within

/-! # Trees of what is not read to its end

A mapping is built entry by entry, so what it becomes does not depend on anything behind the first entry that is not
read to its end. Where in a tree a value stands makes no difference to whether it is. -/

namespace LocaleLint

open Value

namespace Tree

/-- What a value becomes at each place of a tree. -/
def outcome (v : Value) (place : String) : Except BuildError Tree := ofValue place v

/-- The outcome of what is not read to its end, which is the same at all places. -/
def endless (_ : String) : Except BuildError Tree := .error (.coercion .endless)

/-- Whether two values become the same tree at each place, unless the first one is not read to its end. -/
def SameTreeUnlessEndless : Value → Value → Prop := Agree outcome endless

theorem ofValue_other_congr {v w : Value} (hv : ∀ entries, v ≠ .mapping entries) (hw : ∀ entries, w ≠ .mapping entries)
    (same : SameTextUnlessEndless v w) : SameTreeUnlessEndless v w := by
  intro ends
  have text : v.scalarText ≠ .error .endless := by
    intro h
    refine ends (funext fun place => ?_)
    rw [outcome, ofValue_of_not_mapping hv, h]
    rfl
  funext place
  rw [outcome, outcome, ofValue_of_not_mapping hv, ofValue_of_not_mapping hw, same text]

theorem ofValue_at_of_not_mapping {place other : String} {v : Value} {result : Except BuildError Tree}
    (hv : ∀ entries, v ≠ .mapping entries) (h : ofValue place v = result) : ofValue other v = result := by
  rw [← h, ofValue_of_not_mapping hv, ofValue_of_not_mapping hv]

mutual

/-- Whether a value has no text does not depend on its place. -/
theorem ofValue_coercion_at {place : String} (other : String) {v : Value} {e : CoercionError}
    (h : ofValue place v = .error (.coercion e)) : ofValue other v = .error (.coercion e) := by
  match v with
  | .mapping entries =>
    rw [ofValue] at h ⊢
    rw [ofEntries_coercion_at other (eq_error_of_map h)]
    rfl
  | .null | .bool _ | .int _ | .float _ | .nan _ | .text _ | .bytes _ | .date _ | .moment _ | .list _ | .tuple _
  | .set _ | .again _ | .endless =>
    exact ofValue_at_of_not_mapping (fun _ => nofun) h

theorem ofEntries_coercion_at {parent : String} (other : String) {taken : List String} {entries : List (Value × Value)}
    {e : CoercionError} (h : ofEntries parent taken entries = .error (.coercion e)) :
    ofEntries other taken entries = .error (.coercion e) := by
  match entries with
  | [] =>
    rw [ofEntries] at h
    cases h
  | (k, v) :: rest =>
    rw [ofEntries] at h ⊢
    cases hk : k.scalarText with
    | error e' =>
      rw [hk] at h
      cases h
      rfl
    | ok s =>
      simp only [hk] at h ⊢
      split at h
      · cases h
      · rename_i new
        rw [if_neg new]
        cases hv : ofValue (joinKey parent (String.ofList s)) v with
        | error e' =>
          rw [hv] at h
          cases h
          rw [ofValue_coercion_at _ hv]
        | ok tree =>
          -- A tree is the same at all places.
          rw [ofValue_eq_ok_iff.mpr (ofValue_eq_ok_iff.mp hv)]
          simp only [hv] at h ⊢
          cases hrest : ofEntries parent (String.ofList s :: taken) rest with
          | error e' =>
            rw [hrest] at h
            cases h
            rw [ofEntries_coercion_at other hrest]
          | ok m =>
            rw [hrest] at h
            cases h

end

theorem outcome_eq_endless_iff {v : Value} (place : String) :
    outcome v = endless ↔ ofValue place v = .error (.coercion .endless) :=
  ⟨fun h => congrFun h place, fun h => funext fun other => ofValue_coercion_at other h⟩

section Entries
variable {α : Type} {entries : List (Value × α)} {f g : α → Value} {parent : String} {taken : List String}

theorem ofEntries_congr (h : ∀ e ∈ entries, SameTreeUnlessEndless (f e.2) (g e.2))
    (ends : ofEntries parent taken (entries.map fun e => (e.1, f e.2)) ≠ .error (.coercion .endless)) :
    ofEntries parent taken (entries.map fun e => (e.1, g e.2)) =
      ofEntries parent taken (entries.map fun e => (e.1, f e.2)) := by
  induction entries generalizing taken with
  | nil => rfl
  | cons e rest ih =>
    obtain ⟨first, others⟩ := List.forall_mem_cons.mp h
    rw [List.map_cons, ofEntries] at ends
    rw [List.map_cons, List.map_cons, ofEntries, ofEntries]
    cases hk : e.1.scalarText with
    | error e' => rfl
    | ok s =>
      simp only [hk] at ends ⊢
      by_cases repeats : String.ofList s ∈ taken
      · rw [if_pos repeats, if_pos repeats]
      · rw [if_neg repeats] at ends
        rw [if_neg repeats, if_neg repeats]
        have same : ofValue (joinKey parent (String.ofList s)) (f e.2) ≠ .error (.coercion .endless) →
            ofValue (joinKey parent (String.ofList s)) (g e.2) = ofValue (joinKey parent (String.ofList s)) (f e.2) :=
          fun value => congrFun (first fun h => value ((outcome_eq_endless_iff _).mp h)) _
        cases hv : ofValue (joinKey parent (String.ofList s)) (f e.2) with
        | error e' =>
          rw [hv] at ends same
          rw [same fun h => ends (by rw [h])]
        | ok tree =>
          rw [hv] at ends same
          rw [same nofun]
          simp only at ends ⊢
          rw [ih others fun h => ends (by rw [h])]

/-- Mappings with the same keys, whose values agree one by one. -/
theorem mapping_congr (h : ∀ e ∈ entries, SameTreeUnlessEndless (f e.2) (g e.2)) :
    SameTreeUnlessEndless (.mapping (entries.map fun e => (e.1, f e.2))) (.mapping (entries.map fun e => (e.1, g e.2))) := by
  intro ends
  funext place
  have here := mt (outcome_eq_endless_iff place).mpr ends
  rw [ofValue] at here
  rw [outcome, outcome, ofValue, ofValue]
  exact map_unless_error (ofEntries_congr h) here

theorem exists_of_ofEntries_endless
    (h : ofEntries parent taken (entries.map fun e => (e.1, f e.2)) = .error (.coercion .endless)) :
    ∃ e ∈ entries, e.1.scalarText = .error .endless ∨ outcome (f e.2) = endless := by
  induction entries generalizing taken with
  | nil =>
    rw [List.map_nil, ofEntries] at h
    cases h
  | cons e rest ih =>
    rw [List.map_cons, ofEntries] at h
    cases hk : e.1.scalarText with
    | error e' =>
      rw [hk] at h
      cases h
      exact ⟨e, List.mem_cons_self, Or.inl hk⟩
    | ok s =>
      simp only [hk] at h
      split at h
      · cases h
      · cases hv : ofValue (joinKey parent (String.ofList s)) (f e.2) with
        | error e' =>
          rw [hv] at h
          cases h
          exact ⟨e, List.mem_cons_self, Or.inr ((outcome_eq_endless_iff _).mpr hv)⟩
        | ok tree =>
          simp only [hv] at h
          cases hrest : ofEntries parent (String.ofList s :: taken) (rest.map fun e => (e.1, f e.2)) with
          | error e' =>
            rw [hrest] at h
            cases h
            obtain ⟨e, member, found⟩ := ih hrest
            exact ⟨e, List.mem_cons_of_mem _ member, found⟩
          | ok m =>
            rw [hrest] at h
            cases h

end Entries

/-- A value that is no mapping is read to its end where its text is. -/
theorem scalarText_of_endless {v : Value} (other : ∀ entries, v ≠ .mapping entries) (h : outcome v = endless) :
    v.scalarText = .error .endless := by
  have here := (outcome_eq_endless_iff "").mp h
  rw [ofValue_of_not_mapping other] at here
  cases htext : v.scalarText with
  | ok s =>
    rw [htext] at here
    cases here
  | error e =>
    rw [htext] at here
    cases here
    rfl

/-- A mapping that is not read to its end has a key or a value that is not. -/
theorem exists_of_mapping_endless {α : Type} {entries : List (Value × α)} {f : α → Value}
    (h : outcome (.mapping (entries.map fun e => (e.1, f e.2))) = endless) :
    ∃ e ∈ entries, e.1.scalarText = .error .endless ∨ outcome (f e.2) = endless := by
  have here := (outcome_eq_endless_iff "").mp h
  rw [ofValue] at here
  exact exists_of_ofEntries_endless (eq_error_of_map here)

/-- What has an end is read to it. -/
theorem outcome_ne_of_ends {v : Value} (ends : v.Ends) : outcome v ≠ endless := by
  intro h
  by_cases mapping : ∃ entries, v = .mapping entries
  · obtain ⟨entries, hv⟩ := mapping
    have each : ∀ e ∈ entries, e.1.Ends ∧ e.2.Ends := by
      rw [hv, Value.Ends, atoms] at ends
      exact ends_entries.mp ends
    have same : entries.map (fun e => (e.1, id e.2)) = entries := List.map_id _
    obtain ⟨e, member, key | value⟩ := exists_of_mapping_endless (f := id) (same.symm ▸ hv ▸ h)
    · exact (each e member).1.scalarText_ne key
    · exact outcome_ne_of_ends (each e member).2 value
  · exact ends.scalarText_ne (scalarText_of_endless (not_exists.mp mapping) h)
termination_by sizeOf v
decreasing_by exact hv ▸ sizeOf_lt_of_mem member

end Tree

end LocaleLint
