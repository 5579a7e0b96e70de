import LocaleLint.Proofs.Tree.Builds
import LocaleLint.Proofs.Tree.Paths

/-! # Entries in another order

Two loaded mappings, or two trees, that differ in the order of entries at any level. One of two such mappings
becomes a tree exactly if the other does, and their trees again differ in the order of entries only; so do the
nodes of the trees. -/

namespace LocaleLint

namespace Entries
variable {κ α : Type} {R : α → α → Prop} {es fs gs hs : List (κ × α)}

/-- Whether entries are others in another order, each with a value that is related to the other's. -/
inductive Shuffled (R : α → α → Prop) : List (κ × α) → List (κ × α) → Prop
  | nil : Shuffled R [] []
  | cons {k : κ} {v w : α} {es fs : List (κ × α)} (value : R v w) (rest : Shuffled R es fs) :
    Shuffled R ((k, v) :: es) ((k, w) :: fs)
  | swap (e f : κ × α) (es : List (κ × α)) : Shuffled R (e :: f :: es) (f :: e :: es)
  | trans {es fs gs : List (κ × α)} (first : Shuffled R es fs) (second : Shuffled R fs gs) : Shuffled R es gs

namespace Shuffled

theorem keys_perm (h : Shuffled R es fs) : (keys es).Perm (keys fs) := by
  induction h with
  | nil => exact .nil
  | cons value rest ih => exact ih.cons _
  | swap e f es => exact .swap ..
  | trans first second ih₁ ih₂ => exact ih₁.trans ih₂

theorem of_perm (refl : ∀ a, R a a) (h : es.Perm fs) : Shuffled R es fs := by
  induction h with
  | nil => exact .nil
  | cons e rest ih => exact .cons (refl e.2) ih
  | swap e f es => exact .swap ..
  | trans first second ih₁ ih₂ => exact .trans ih₁ ih₂

theorem append_right (refl : ∀ a, R a a) (h : Shuffled R es fs) (gs : List (κ × α)) : Shuffled R (es ++ gs) (fs ++ gs) := by
  induction h with
  | nil => exact of_perm refl (.refl gs)
  | cons value rest ih => exact .cons value ih
  | swap e f es => exact .swap ..
  | trans first second ih₁ ih₂ => exact .trans ih₁ ih₂

theorem append_left (refl : ∀ a, R a a) (es : List (κ × α)) (h : Shuffled R fs gs) : Shuffled R (es ++ fs) (es ++ gs) := by
  induction es with
  | nil => exact h
  | cons e rest ih => exact .cons (refl e.2) ih

theorem append (refl : ∀ a, R a a) (h : Shuffled R es fs) (h' : Shuffled R gs hs) : Shuffled R (es ++ gs) (fs ++ hs) :=
  .trans (h.append_right refl gs) (h'.append_left refl fs)

theorem map_keys {μ : Type} (f : κ → μ) (h : Shuffled R es fs) :
    Shuffled R (es.map fun e => (f e.1, e.2)) (fs.map fun e => (f e.1, e.2)) := by
  induction h with
  | nil => exact .nil
  | cons value rest ih => exact .cons value ih
  | swap e f es => exact .swap ..
  | trans first second ih₁ ih₂ => exact .trans ih₁ ih₂

/-- What related values have in common an entry of a key has wherever it stands. -/
theorem exists_mem_iff {P : α → Prop} (h : Shuffled R es fs) (same : ∀ v w, R v w → (P v ↔ P w)) (k : κ) :
    (∃ v, (k, v) ∈ es ∧ P v) ↔ ∃ v, (k, v) ∈ fs ∧ P v := by
  induction h with
  | nil => rfl
  | cons value rest ih =>
    simp only [List.mem_cons, or_and_right, exists_or, ih, Prod.mk.injEq]
    refine or_congr_left ⟨?_, ?_⟩
    · rintro ⟨_, ⟨rfl, rfl⟩, holds⟩
      exact ⟨_, ⟨rfl, rfl⟩, (same _ _ value).mp holds⟩
    · rintro ⟨_, ⟨rfl, rfl⟩, holds⟩
      exact ⟨_, ⟨rfl, rfl⟩, (same _ _ value).mpr holds⟩
  | swap e f es => exact exists_congr fun v => and_congr_left fun _ => (List.Perm.swap f e es).mem_iff
  | trans first second ih₁ ih₂ => exact ih₁.trans ih₂

theorem forall_of_forall {P : α → Prop} (h : Shuffled R es fs) (keeps : ∀ v w, R v w → P v → P w)
    (all : ∀ e ∈ es, P e.2) : ∀ e ∈ fs, P e.2 := by
  induction h with
  | nil => exact all
  | cons value rest ih =>
    obtain ⟨first, others⟩ := List.forall_mem_cons.mp all
    exact List.forall_mem_cons.mpr ⟨keeps _ _ value first, ih others⟩
  | swap e f es => exact fun g hg => all g ((List.Perm.swap e f es).mem_iff.mp hg)
  | trans first second ih₁ ih₂ => exact ih₂ (ih₁ all)

/-- The keys of the entries that pass a test are the same up to order if related values are told apart by it
    nowhere. -/
theorem filter_keys_perm {P : α → Prop} {q : κ × α → Bool} (h : Shuffled R es fs)
    (keeps : ∀ v w, R v w → P v → P w) (same : ∀ k v w, R v w → P v → q (k, v) = q (k, w)) (all : ∀ e ∈ es, P e.2) :
    (keys (es.filter q)).Perm (keys (fs.filter q)) := by
  induction h with
  | nil => exact .nil
  | @cons k v w es fs value rest ih =>
    obtain ⟨first, others⟩ := List.forall_mem_cons.mp all
    rw [List.filter_cons, List.filter_cons, same k v w value first]
    split
    · exact (ih others).cons k
    · exact ih others
  | swap e f es => exact ((List.Perm.swap f e es).filter q).map _
  | trans first second ih₁ ih₂ => exact (ih₁ all).trans (ih₂ (first.forall_of_forall keeps all))

end Shuffled

end Entries

open Entries

/-! ### Loaded values and trees -/

/-- Whether a loaded value is another with the entries of its mapping, and of the mappings that are reached
    through values of mappings, in another order. -/
inductive Value.Reordered : Value → Value → Prop
  | refl (v : Value) : Reordered v v
  | mapping {es fs : List (Value × Value)} (h : Shuffled Reordered es fs) : Reordered (.mapping es) (.mapping fs)

/-- Whether a tree is another with entries in another order. -/
inductive Tree.Reordered : Tree → Tree → Prop
  | refl (tree : Tree) : Reordered tree tree
  | mapping {m n : List (String × Tree)} (h : Shuffled Reordered m n) : Reordered (.mapping m) (.mapping n)

namespace Value

mutual

theorem Reordered.symm {v w : Value} (h : Reordered v w) : Reordered w v := by
  match h with
  | .refl v => exact .refl v
  | .mapping h => exact .mapping (shuffled_symm h)

theorem shuffled_symm {es fs : List (Value × Value)} (h : Shuffled Reordered es fs) : Shuffled Reordered fs es := by
  match h with
  | .nil => exact .nil
  | .cons value rest => exact .cons value.symm (shuffled_symm rest)
  | .swap e f es => exact .swap f e es
  | .trans first second => exact .trans (shuffled_symm second) (shuffled_symm first)

end

mutual

/-- If a value becomes a tree, the value in another order becomes the tree in another order. -/
theorem Reordered.builds {v w : Value} {tree : Tree} (h : Reordered v w) (built : v.Builds tree) :
    ∃ other, w.Builds other ∧ tree.Reordered other := by
  match h with
  | .refl v => exact ⟨tree, built, .refl tree⟩
  | .mapping h =>
    cases built with
    | leaf other text => exact absurd rfl (other _)
    | mapping each distinct =>
      obtain ⟨n, each, shuffled⟩ := shuffled_builds h each
      exact ⟨.mapping n, .mapping each (shuffled.keys_perm.nodup distinct), .mapping shuffled⟩

theorem shuffled_builds {es fs : List (Value × Value)} {m : Mapping} (h : Shuffled Reordered es fs)
    (built : BuildsEntries es m) : ∃ n, BuildsEntries fs n ∧ Shuffled Tree.Reordered m n := by
  match h with
  | .nil => exact ⟨m, built, by cases built; exact .nil⟩
  | .cons value rest =>
    obtain ⟨s, tree, others, key, first, later, rfl⟩ := Tree.buildsEntries_cons.mp built
    obtain ⟨other, first, reordered⟩ := value.builds first
    obtain ⟨n, later, shuffled⟩ := shuffled_builds rest later
    exact ⟨_, .cons key first later, .cons reordered shuffled⟩
  | .swap e f es =>
    obtain ⟨s, tree, others, key, first, later, rfl⟩ := Tree.buildsEntries_cons.mp built
    obtain ⟨s', tree', others, key', second, last, rfl⟩ := Tree.buildsEntries_cons.mp later
    exact ⟨_, .cons key' second (.cons key first last), .swap ..⟩
  | .trans first second =>
    obtain ⟨n, built, shuffled⟩ := shuffled_builds first built
    obtain ⟨n', built, shuffled'⟩ := shuffled_builds second built
    exact ⟨n', built, shuffled.trans shuffled'⟩

end

end Value

namespace Tree

theorem Reordered.ownKeys_perm {tree other : Tree} (h : tree.Reordered other) : tree.ownKeys.Perm other.ownKeys := by
  cases h with
  | refl => exact .refl _
  | mapping h => exact h.keys_perm

mutual

/-- The nodes of trees that differ in order differ in order. -/
theorem Reordered.nodes {tree other : Tree} (h : Reordered tree other) : Shuffled Reordered tree.nodes other.nodes := by
  match h with
  | .refl tree => exact .of_perm .refl (.refl _)
  | .mapping h =>
    rw [Tree.nodes, Tree.nodes]
    exact .cons (.mapping h) (shuffled_nodesBelow h)

theorem shuffled_nodesBelow {m n : List (String × Tree)} (h : Shuffled Reordered m n) :
    Shuffled Reordered (nodesBelow m) (nodesBelow n) := by
  match h with
  | .nil => exact .nil
  | .cons value rest =>
    rw [nodesBelow, nodesBelow]
    exact .append .refl (value.nodes.map_keys _) (shuffled_nodesBelow rest)
  | .swap e f es =>
    simp only [nodesBelow]
    exact .of_perm .refl (List.perm_append_comm_assoc ..)
  | .trans first second => exact .trans (shuffled_nodesBelow first) (shuffled_nodesBelow second)

end

mutual

/-- In a tree that was built no mapping has a key twice. -/
theorem distinct_of_builds {v : Value} {tree : Tree} (h : v.Builds tree) : Distinct tree := by
  match h with
  | .leaf _ _ =>
    intro node hnode
    rw [List.mem_singleton.mp hnode]
    exact List.nodup_nil
  | .mapping each distinct => exact distinct_mapping.mpr ⟨distinct, distinct_of_buildsEntries each⟩

theorem distinct_of_buildsEntries {entries : List (Value × Value)} {m : Mapping} (h : Value.BuildsEntries entries m) :
    ∀ entry ∈ m, Distinct entry.2 := by
  match h with
  | .nil => exact List.forall_mem_nil _
  | .cons _ value rest => exact List.forall_mem_cons.mpr ⟨distinct_of_builds value, distinct_of_buildsEntries rest⟩

end

end Tree

end LocaleLint
