import Mathlib.Data.List.Nodup
import LocaleLint.Proofs.Entries
import LocaleLint.Tree.Walk

/-! # Paths

The node at a path is told by the node at the path before it. Where no mapping has a key twice, each path leads
to one node, which is found by following the keys from the root. -/

namespace LocaleLint.Tree

/-- The keys of a node's own entries. -/
def ownKeys : Tree → List String
  | leaf _ => []
  | mapping m => Entries.keys m

/-- The node that keys lead to, one after another. -/
def follow : List String → Tree → Option Tree
  | [], tree => some tree
  | _ :: _, leaf _ => none
  | key :: path, mapping m => (Entries.get? m key).bind (follow path)

/-- Whether no mapping of a tree has a key twice. -/
def Distinct (tree : Tree) : Prop := ∀ node ∈ nodes tree, node.2.ownKeys.Nodup

instance : DecidablePred Distinct := fun tree => inferInstanceAs (Decidable (∀ node ∈ nodes tree, node.2.ownKeys.Nodup))

section Member
variable {tree node : Tree} {key : String} {path : List String}

theorem mem_nodesBelow {entries : List (String × Tree)} : (path, node) ∈ nodesBelow entries ↔
    ∃ key rest sub, path = key :: rest ∧ (key, sub) ∈ entries ∧ (rest, node) ∈ nodes sub := by
  induction entries with
  | nil => simp [nodesBelow]
  | cons entry others ih =>
    obtain ⟨k, tree⟩ := entry
    rw [nodesBelow, List.mem_append, List.mem_map, ih]
    constructor
    · rintro (⟨⟨rest, found⟩, hfound, same⟩ | ⟨key, rest, sub, rfl, hsub, hrest⟩)
      · obtain ⟨rfl, rfl⟩ := Prod.mk.inj same
        exact ⟨k, rest, tree, rfl, List.mem_cons_self, hfound⟩
      · exact ⟨key, rest, sub, rfl, List.mem_cons_of_mem _ hsub, hrest⟩
    · rintro ⟨key, rest, sub, rfl, hsub, hrest⟩
      rcases List.mem_cons.mp hsub with same | hsub
      · obtain ⟨rfl, rfl⟩ := Prod.mk.inj same
        exact Or.inl ⟨(rest, node), hrest, rfl⟩
      · exact Or.inr ⟨key, rest, sub, rfl, hsub, hrest⟩

theorem nil_mem_nodes : ([], node) ∈ nodes tree ↔ node = tree := by
  cases tree with
  | leaf text => simp [nodes]
  | mapping m => simp [nodes, mem_nodesBelow]

theorem cons_mem_nodes {m : List (String × Tree)} : (key :: path, node) ∈ nodes (.mapping m) ↔
    ∃ sub, (key, sub) ∈ m ∧ (path, node) ∈ nodes sub := by
  rw [nodes, List.mem_cons, mem_nodesBelow]
  constructor
  · rintro (root | ⟨_, _, sub, same, hsub, hnode⟩)
    · cases root
    · obtain ⟨rfl, rfl⟩ := List.cons.inj same
      exact ⟨sub, hsub, hnode⟩
  · rintro ⟨sub, hsub, hnode⟩
    exact Or.inr ⟨key, path, sub, rfl, hsub, hnode⟩

theorem cons_not_mem_nodes_leaf {text : String} : ¬ (key :: path, node) ∈ nodes (.leaf text) := by
  rw [nodes, List.mem_singleton]
  exact fun same => List.cons_ne_nil key path (congrArg Prod.fst same)

/-- A node below another one is an entry of a mapping that is a node itself. -/
theorem concat_mem_nodes : (path ++ [key], node) ∈ nodes tree ↔
    ∃ m, (path, .mapping m) ∈ nodes tree ∧ (key, node) ∈ m := by
  induction path generalizing tree with
  | nil =>
    cases tree with
    | leaf text => simp [cons_not_mem_nodes_leaf, nil_mem_nodes]
    | mapping m => simp [cons_mem_nodes, nil_mem_nodes]
  | cons k rest ih =>
    cases tree with
    | leaf text => simp [cons_not_mem_nodes_leaf]
    | mapping m =>
      simp only [List.cons_append, cons_mem_nodes, ih]
      constructor
      · rintro ⟨sub, hsub, m, hm, hnode⟩
        exact ⟨m, ⟨sub, hsub, hm⟩, hnode⟩
      · rintro ⟨m, ⟨sub, hsub, hm⟩, hnode⟩
        exact ⟨sub, hsub, m, hm, hnode⟩

theorem key_mem_ownKeys {m : List (String × Tree)} (h : (key, node) ∈ m) : key ∈ ownKeys (.mapping m) :=
  List.mem_map.mpr ⟨(key, node), h, rfl⟩

/-- What holds of the own keys of all nodes holds of the keys on the way to a node. -/
theorem forall_path {P : String → Prop} (all : ∀ n ∈ nodes tree, ∀ k ∈ n.2.ownKeys, P k) (h : (path, node) ∈ nodes tree) :
    ∀ k ∈ path, P k := by
  induction path using List.reverseRecOn generalizing node with
  | nil => exact List.forall_mem_nil _
  | append_singleton path key ih =>
    obtain ⟨m, hm, hnode⟩ := concat_mem_nodes.mp h
    rw [List.forall_mem_append, List.forall_mem_singleton]
    exact ⟨ih hm, all _ hm key (key_mem_ownKeys hnode)⟩

end Member

section Distinct
variable {tree node : Tree} {path : List String}

theorem distinct_mapping {m : List (String × Tree)} :
    Distinct (.mapping m) ↔ (Entries.keys m).Nodup ∧ ∀ entry ∈ m, Distinct entry.2 := by
  constructor
  · intro h
    refine ⟨h ([], .mapping m) (nil_mem_nodes.mpr rfl), fun entry hentry node hnode => ?_⟩
    exact h (entry.1 :: node.1, node.2) (cons_mem_nodes.mpr ⟨entry.2, hentry, hnode⟩)
  · rintro ⟨own, below⟩ ⟨path, node⟩ hnode
    cases path with
    | nil =>
      rw [nil_mem_nodes.mp hnode]
      exact own
    | cons key path =>
      obtain ⟨sub, hsub, hnode⟩ := cons_mem_nodes.mp hnode
      exact below (key, sub) hsub (path, node) hnode

theorem follow_eq_some_iff (h : Distinct tree) : follow path tree = some node ↔ (path, node) ∈ nodes tree := by
  induction path generalizing tree with
  | nil => rw [follow, nil_mem_nodes, Option.some_inj, eq_comm]
  | cons key rest ih =>
    cases tree with
    | leaf text => exact ⟨nofun, fun h => absurd h cons_not_mem_nodes_leaf⟩
    | mapping m =>
      obtain ⟨own, below⟩ := distinct_mapping.mp h
      rw [follow, Option.bind_eq_some_iff, cons_mem_nodes]
      simp only [Entries.get?_eq_some_iff own]
      exact exists_congr fun sub => and_congr_right fun hsub => ih (below _ hsub)

mutual

/-- No path leads to two nodes. -/
theorem nodup_paths (tree : Tree) (h : Distinct tree) : ((nodes tree).map (·.1)).Nodup := by
  match tree with
  | .leaf text => exact List.nodup_singleton _
  | .mapping m =>
    obtain ⟨own, below⟩ := distinct_mapping.mp h
    rw [nodes, List.map_cons, List.nodup_cons]
    refine ⟨?_, nodup_pathsBelow m own below⟩
    intro root
    obtain ⟨n, hn, empty⟩ := List.mem_map.mp root
    obtain ⟨_, _, _, path, -⟩ := mem_nodesBelow.mp hn
    exact List.cons_ne_nil _ _ (path.symm.trans empty)

theorem nodup_pathsBelow (entries : List (String × Tree)) (keys : (Entries.keys entries).Nodup)
    (h : ∀ entry ∈ entries, Distinct entry.2) : ((nodesBelow entries).map (·.1)).Nodup := by
  match entries with
  | [] => exact List.nodup_nil
  | (key, tree) :: rest =>
    obtain ⟨first, others⟩ := List.forall_mem_cons.mp h
    obtain ⟨new, keys⟩ := List.nodup_cons.mp keys
    rw [nodesBelow, List.map_append, List.map_map]
    have below : ((fun node => node.1) ∘ fun node => (key :: node.1, node.2)) =
        (key :: ·) ∘ fun node : List String × Tree => node.1 := rfl
    rw [below, ← List.map_map]
    refine ((nodup_paths tree first).map List.cons_injective).append (nodup_pathsBelow rest keys others) ?_
    -- Paths below different keys differ in their first key.
    intro path hfirst hother
    obtain ⟨_, -, rfl⟩ := List.mem_map.mp hfirst
    obtain ⟨n, hn, same⟩ := List.mem_map.mp hother
    obtain ⟨k, _, sub, path, hsub, -⟩ := mem_nodesBelow.mp hn
    obtain ⟨rfl, -⟩ := List.cons.inj (path.symm.trans same)
    exact new (List.mem_map.mpr ⟨(k, sub), hsub, rfl⟩)

end

end Distinct

end LocaleLint.Tree
