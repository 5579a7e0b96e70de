import Mathlib.Data.List.Basic
import LocaleLint.Tree.Key

/-! # Segments of dotted keys

A path whose keys are not empty and hold no dot is told by its dotted key: what stands between the dots are the
keys. An empty key at the start of a path is lost in its dotted key. -/

namespace LocaleLint

/-- Whether a key is told by what it is between dots. -/
def IsSegment (key : String) : Prop := key ≠ "" ∧ '.' ∉ key.toList

instance : DecidablePred IsSegment := fun key => inferInstanceAs (Decidable (key ≠ "" ∧ '.' ∉ key.toList))

/-- What stands between the dots of a dotted key; the empty one is that of the root. -/
def segments (key : String) : List String := if key = "" then [] else (key.toList.splitOn '.').map String.ofList

section Dotted
variable {parent key : String} {path : List String}

theorem joinKey_of_ne (h : parent ≠ "") (key : String) : joinKey parent key = parent ++ "." ++ key := by
  rw [joinKey, if_neg (mt String.isEmpty_iff.mp h)]

/-- The dotted key of a path below a place has a dot before each key. -/
theorem dottedFrom_eq_intercalate (h : parent ≠ "") (path : List String) :
    dottedFrom parent path = ".".intercalate (parent :: path) := by
  induction path generalizing parent with
  | nil => rw [String.intercalate_singleton]; rfl
  | cons key rest ih =>
    have joined : joinKey parent key ≠ "" := by
      rw [joinKey_of_ne h]
      simp
    rw [dottedFrom_cons, ih joined, joinKey_of_ne h]
    cases rest <;> simp [String.intercalate_cons_cons, String.append_assoc]

theorem dotted_eq_intercalate (h : ∀ key ∈ path, key ≠ "") : dotted path = ".".intercalate path := by
  cases path with
  | nil => rfl
  | cons key rest => exact dottedFrom_eq_intercalate (h key List.mem_cons_self) rest

theorem dotted_eq_empty_iff (h : ∀ key ∈ path, key ≠ "") : dotted path = "" ↔ path = [] := by
  rw [dotted_eq_intercalate h]
  cases path with
  | nil => simp
  | cons key rest =>
    have := h key List.mem_cons_self
    cases rest <;> simp [String.intercalate_cons_cons, this]

/-- The segments of the dotted key of a path are its keys. -/
theorem segments_dotted (h : ∀ key ∈ path, IsSegment key) : segments (dotted path) = path := by
  have ne : ∀ key ∈ path, key ≠ "" := fun key hkey => (h key hkey).1
  by_cases root : path = []
  · rw [root]
    rfl
  · have noDot : ∀ s ∈ path.map String.toList, '.' ∉ s := List.forall_mem_map.mpr fun key hkey => (h key hkey).2
    rw [segments, if_neg (mt (dotted_eq_empty_iff ne).mp root), dotted_eq_intercalate ne, String.toList_intercalate]
    show (List.splitOn '.' (['.'].intercalate (path.map String.toList))).map String.ofList = path
    rw [List.splitOn_intercalate '.' noDot (by simpa using root), List.map_map]
    exact List.map_id'' (fun key => String.ofList_toList) path

/-- A dotted key none of whose segments is empty is made of its segments. -/
theorem dotted_segments (h : ∀ segment ∈ segments key, segment ≠ "") : dotted (segments key) = key := by
  rw [dotted_eq_intercalate h]
  apply String.toList_injective
  rw [String.toList_intercalate, segments]
  split
  · rename_i root
    rw [root]
    rfl
  · rw [List.map_map]
    have : String.toList ∘ String.ofList = id := funext fun s => String.toList_ofList
    rw [this, List.map_id]
    exact List.intercalate_splitOn '.'

end Dotted

end LocaleLint
