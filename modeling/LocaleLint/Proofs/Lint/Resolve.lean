import LocaleLint.Lint.Resolve
import LocaleLint.Proofs.Journal

/-! # What patterns resolve to

Patterns resolve if each of them can be searched for, and then to the names that some pattern finds, each of them once.
A pattern that cannot be searched for ends the resolving. Nothing is printed meanwhile. -/

namespace LocaleLint.Lint

variable {ε : Type} {find : String → Except ε (List String)} {names result : List String} {patterns : List String}

theorem resolveAfter_cons {pattern : String} {found : List String} (h : find pattern = .ok found) :
    resolveAfter find names (pattern :: patterns) =
      ⟨unmatched pattern found ++ (resolveAfter find (addNew names (Text.sorted found)) patterns).journal,
        (resolveAfter find (addNew names (Text.sorted found)) patterns).result⟩ := by
  rw [resolveAfter, h]
  rfl

theorem resolveAfter_of_error {pattern : String} {e : ε} (h : find pattern = .error e) :
    (resolveAfter find names (pattern :: patterns)).result = .error e := by
  rw [resolveAfter, h]
  rfl

theorem find_of_resolveAfter {pattern : String} (h : (resolveAfter find names (pattern :: patterns)).result = .ok result) :
    ∃ found, find pattern = .ok found := by
  cases hfind : find pattern with
  | ok found => exact ⟨found, rfl⟩
  | error e =>
    rw [resolveAfter_of_error hfind] at h
    cases h

theorem nodup_of_resolveAfter (distinct : names.Nodup) (h : (resolveAfter find names patterns).result = .ok result) :
    result.Nodup := by
  induction patterns generalizing names with
  | nil =>
    cases h
    exact distinct
  | cons pattern patterns ih =>
    obtain ⟨found, hfound⟩ := find_of_resolveAfter h
    rw [resolveAfter_cons hfound] at h
    exact ih (nodup_addNew distinct _) h

theorem resolveAfter_isOk_iff : (∃ result, (resolveAfter find names patterns).result = .ok result) ↔
    ∀ pattern ∈ patterns, ∃ found, find pattern = .ok found := by
  induction patterns generalizing names with
  | nil => exact iff_of_true ⟨names, rfl⟩ nofun
  | cons pattern patterns ih =>
    rw [List.forall_mem_cons]
    cases hfind : find pattern with
    | error e =>
      rw [resolveAfter_of_error hfind]
      exact iff_of_false nofun fun h => nomatch h.1
    | ok found =>
      rw [resolveAfter_cons hfind, ih]
      exact (and_iff_right ⟨found, rfl⟩).symm

theorem mem_of_resolveAfter {name : String} (h : (resolveAfter find names patterns).result = .ok result) :
    name ∈ result ↔ name ∈ names ∨ ∃ pattern ∈ patterns, ∃ found, find pattern = .ok found ∧ name ∈ found := by
  induction patterns generalizing names with
  | nil =>
    cases h
    exact (or_iff_left nofun).symm
  | cons pattern patterns ih =>
    obtain ⟨found, hfound⟩ := find_of_resolveAfter h
    rw [resolveAfter_cons hfound] at h
    have here : (∃ others, find pattern = .ok others ∧ name ∈ others) ↔ name ∈ found := by
      rw [hfound]
      exact ⟨fun ⟨_, same, member⟩ => Except.ok.inj same ▸ member, fun member => ⟨found, rfl, member⟩⟩
    simp only [ih h, mem_addNew, Text.mem_sorted, List.mem_cons, or_and_right, exists_or, exists_eq_left, here, or_assoc]

theorem printed_resolveAfter (find : String → Except ε (List String)) (names patterns : List String) :
    (resolveAfter find names patterns).journal.printed = [] := by
  induction patterns generalizing names with
  | nil => rfl
  | cons pattern patterns ih =>
    cases found : find pattern with
    | error e =>
      rw [resolveAfter, found]
      rfl
    | ok matched =>
      rw [resolveAfter_cons found, Journal.printed_append, ih, unmatched]
      split <;> rfl

end LocaleLint.Lint
