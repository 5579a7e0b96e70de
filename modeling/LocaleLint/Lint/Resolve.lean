import LocaleLint.Journal
import LocaleLint.Text.Order

/-! # Resolving patterns

The files to be linted are those that the patterns find: pattern by pattern, the names of each pattern in
ascending order, and a name that came before is not taken again. -/

namespace LocaleLint.Lint

/-- Names followed by those of others that are new. -/
def addNew (names : List String) : List String → List String
  | [] => names
  | name :: more => addNew (if name ∈ names then names else names ++ [name]) more

/-- What is logged about a pattern: that it finds nothing. -/
def unmatched (pattern : String) (found : List String) : Journal :=
  if found.isEmpty then .entry (.unmatched pattern) else .empty

/-- Names followed by those that patterns find. -/
def resolveAfter {ε : Type} (find : String → Except ε (List String)) (names : List String) :
    List String → Run ε (List String)
  | [] => pure names
  | pattern :: patterns => do
    let found ← Run.ofExcept (find pattern)
    Run.record (unmatched pattern found)
    resolveAfter find (addNew names (Text.sorted found)) patterns

def resolve {ε : Type} (find : String → Except ε (List String)) (patterns : List String) : Run ε (List String) :=
  resolveAfter find [] patterns

theorem mem_addNew {names more : List String} {name : String} :
    name ∈ addNew names more ↔ name ∈ names ∨ name ∈ more := by
  induction more generalizing names with
  | nil => simp [addNew]
  | cons first rest ih =>
    rw [addNew, ih]
    by_cases h : first ∈ names
    · rw [if_pos h, List.mem_cons]
      constructor
      · rintro (hn | hr)
        · exact Or.inl hn
        · exact Or.inr (Or.inr hr)
      · rintro (hn | rfl | hr)
        · exact Or.inl hn
        · exact Or.inl h
        · exact Or.inr hr
    · rw [if_neg h, List.mem_append, List.mem_singleton, List.mem_cons, or_assoc]

theorem nodup_addNew {names : List String} (h : names.Nodup) (more : List String) : (addNew names more).Nodup := by
  induction more generalizing names with
  | nil => exact h
  | cons first rest ih =>
    rw [addNew]
    apply ih
    split
    · exact h
    · rename_i hnew
      refine List.nodup_append.mpr ⟨h, by simp, ?_⟩
      intro a ha b hb hab
      rw [List.mem_singleton] at hb
      exact hnew (hb ▸ hab ▸ ha)

end LocaleLint.Lint
