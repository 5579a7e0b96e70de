import LocaleLint.Proofs.Rule.Violation
import LocaleLint.Proofs.Tree.Paths
import LocaleLint.Proofs.Tree.Segments

/-! # Preorder

The nodes of a tree stand in depth-first preorder, which for a tree without repeated keys is a single list. Both
walks of the linter are restrictions of that list. A walk gives a node the keys on the way to it with dots between
them; the empty keys at the start are left out, so a place without a key leaves no trace, nor does an empty key
below it. -/

namespace LocaleLint

/-- The keys of a place and of a path below it with dots between them, without the empty ones at the start. -/
def joined (parent : String) (path : List String) : String :=
  ".".intercalate ((parent :: path).dropWhile (· = ""))

theorem dottedFrom_eq_joined (parent : String) (path : List String) :
    dottedFrom parent path = joined parent path := by
  induction path generalizing parent with
  | nil =>
    by_cases h : parent = ""
    · rw [h]
      rfl
    · rw [dottedFrom_eq_intercalate h, joined, List.dropWhile_cons_of_neg (by simpa using h)]
  | cons key rest ih =>
    by_cases h : parent = ""
    · -- Below a place without a key the first key is the place of the rest.
      have place : joinKey "" key = key := rfl
      have skip : ("" :: key :: rest).dropWhile (· = "") = (key :: rest).dropWhile (· = "") :=
        List.dropWhile_cons_of_pos (by simp)
      rw [h, dottedFrom_cons, place, ih, joined, joined, skip]
    · rw [dottedFrom_eq_intercalate h, joined, List.dropWhile_cons_of_neg (by simpa using h)]

example : joined "" ["", "a", "", "b"] = "a..b" := by decide +kernel

namespace Tree

/-- Whether the entries under the keys of a path lead from a tree to a node. -/
inductive Reaches : Tree → List String → Tree → Prop
  | here {tree : Tree} : Reaches tree [] tree
  | through {m : List (String × Tree)} {key : String} {sub node : Tree} {path : List String} (entry : (key, sub) ∈ m)
      (rest : Reaches sub path node) : Reaches (.mapping m) (key :: path) node

/-- Whether one path comes before another: a node comes before what is below it, and what is below an entry before
    what is below a later one. -/
inductive Before : Tree → List String → List String → Prop
  | above {tree : Tree} {key : String} {path : List String} : Before tree [] (key :: path)
  | within {m : List (String × Tree)} {key : String} {sub : Tree} {path later : List String} (entry : (key, sub) ∈ m)
      (below : Before sub path later) : Before (.mapping m) (key :: path) (key :: later)
  | beside {m : List (String × Tree)} {first second : String} {path later : List String}
      (order : [first, second].Sublist (Entries.keys m)) : Before (.mapping m) (first :: path) (second :: later)

/-- Whether a list holds the nodes of a tree with their paths in depth-first preorder. -/
structure Preorder (tree : Tree) (order : List (List String × Tree)) : Prop where
  mem_iff : ∀ path node, (path, node) ∈ order ↔ Reaches tree path node
  ordered : order.Pairwise fun a b => Before tree a.1 b.1

/-! ### The list of nodes -/

theorem mem_nodes_iff_reaches {tree node : Tree} {path : List String} :
    (path, node) ∈ nodes tree ↔ Reaches tree path node := by
  induction path generalizing tree with
  | nil =>
    rw [nil_mem_nodes]
    constructor
    · rintro rfl
      exact .here
    · intro h
      cases h
      rfl
  | cons key rest ih =>
    cases tree with
    | leaf text => exact ⟨fun h => absurd h cons_not_mem_nodes_leaf, nofun⟩
    | mapping m =>
      rw [cons_mem_nodes]
      constructor
      · rintro ⟨sub, hsub, hnode⟩
        exact .through hsub (ih.mp hnode)
      · intro h
        cases h with
        | through entry reached => exact ⟨_, entry, ih.mpr reached⟩

theorem Before.cons {e : String × Tree} {m : List (String × Tree)} {p q : List String} (h : Before (.mapping m) p q) :
    Before (.mapping (e :: m)) p q := by
  cases h with
  | above => exact .above
  | within entry below => exact .within (List.mem_cons_of_mem _ entry) below
  | beside order => exact .beside (order.cons _)

mutual

theorem pairwise_nodes (tree : Tree) : (nodes tree).Pairwise fun a b => Before tree a.1 b.1 := by
  match tree with
  | .leaf text => exact List.pairwise_singleton _ _
  | .mapping m =>
    rw [nodes, List.pairwise_cons]
    refine ⟨fun node hnode => ?_, pairwise_nodesBelow m⟩
    obtain ⟨key, rest, _, path, -⟩ := mem_nodesBelow.mp (show (node.1, node.2) ∈ nodesBelow m from hnode)
    rw [path]
    exact .above

theorem pairwise_nodesBelow (m : List (String × Tree)) :
    (nodesBelow m).Pairwise fun a b => Before (.mapping m) a.1 b.1 := by
  match m with
  | [] => exact .nil
  | (key, sub) :: rest =>
    rw [nodesBelow, List.pairwise_append, List.pairwise_map]
    refine ⟨?_, ?_, ?_⟩
    · exact (pairwise_nodes sub).imp fun before => .within List.mem_cons_self before
    · exact (pairwise_nodesBelow rest).imp Before.cons
    · intro a ha b hb
      obtain ⟨node, -, rfl⟩ := List.mem_map.mp ha
      obtain ⟨other, later, tree, path, hother, -⟩ := mem_nodesBelow.mp (show (b.1, b.2) ∈ nodesBelow rest from hb)
      rw [path]
      have member : other ∈ Entries.keys rest := key_mem_ownKeys hother
      exact .beside ((List.singleton_sublist.mpr member).cons_cons key)

end

theorem preorder_nodes (tree : Tree) : Preorder tree (nodes tree) :=
  ⟨fun _ _ => mem_nodes_iff_reaches, pairwise_nodes tree⟩

/-! ### A single order -/

/-- Of two members of a list without repetitions one comes first. -/
theorem not_pair_sublist_of_nodup {α : Type} {l : List α} {a b : α} (nodup : l.Nodup) (h : [a, b].Sublist l) :
    a ≠ b ∧ ¬ [b, a].Sublist l := by
  have ne : a ≠ b := by simpa using h.nodup nodup
  refine ⟨ne, fun h' => ?_⟩
  induction l with
  | nil => cases h
  | cons c l ih =>
    obtain ⟨new, nodup⟩ := List.nodup_cons.mp nodup
    cases h with
    | cons _ h =>
      cases h' with
      | cons _ h' => exact ih nodup h h'
      | cons_cons _ h' => exact new (h.subset (by simp))
    | cons_cons _ h =>
      cases h' with
      | cons _ h' => exact new (h'.subset (by simp))
      | cons_cons _ h' => exact ne rfl

theorem Before.asymm {tree : Tree} {p q : List String} (h : Before tree p q) (distinct : Distinct tree) :
    ¬ Before tree q p := by
  induction h with
  | above => nofun
  | @within m key sub path later entry below ih =>
    obtain ⟨own, subs⟩ := distinct_mapping.mp distinct
    intro other
    cases other with
    | within entry' below' =>
      rw [← Entries.get?_eq_some_iff own] at entry entry'
      obtain rfl := Option.some.inj (entry.symm.trans entry')
      exact ih (subs _ ((Entries.get?_eq_some_iff own).mp entry)) below'
    | beside order => exact (not_pair_sublist_of_nodup own order).1 rfl
  | beside order =>
    obtain ⟨own, -⟩ := distinct_mapping.mp distinct
    intro other
    cases other with
    | within entry below => exact (not_pair_sublist_of_nodup own order).1 rfl
    | beside order' => exact (not_pair_sublist_of_nodup own order).2 order'

namespace Preorder
variable {tree : Tree} {order other : List (List String × Tree)}

theorem nodup_paths (h : Preorder tree order) (distinct : Distinct tree) : (order.map (·.1)).Nodup := by
  rw [List.Nodup, List.pairwise_map]
  refine h.ordered.imp fun {a b} before same => ?_
  have self : Before tree a.1 a.1 := by rwa [← same] at before
  exact self.asymm distinct self

theorem unique (h : Preorder tree order) (h' : Preorder tree other) (distinct : Distinct tree) : order = other := by
  have same : ∀ node, node ∈ order ↔ node ∈ other := fun node => by rw [h.mem_iff, h'.mem_iff]
  have perm : order.Perm other :=
    (List.perm_ext_iff_of_nodup (h.nodup_paths distinct).of_map (h'.nodup_paths distinct).of_map).mpr same
  exact perm.eq_of_pairwise (fun a b _ _ first second => absurd second (first.asymm distinct)) h.ordered h'.ordered

end Preorder

end Tree

open LocaleLint.Tree

/-- Both walks of a tree, from wherever it stands, are restrictions of the preorder of its nodes, to the leaves and to
    the mappings with a pluralization key. -/
theorem Mapping.walks_restrict_preorder (tree : Mapping) : ∃ order, Preorder (.mapping tree) order ∧
    (Distinct (.mapping tree) → (order.map (·.1)).Nodup ∧ ∀ other, Preorder (.mapping tree) other → other = order) ∧
    ∀ parent,
      tree.translations parent = order.filterMap (fun node =>
        match node.2 with
        | .leaf text => some ⟨joined parent node.1, text, node.1.getLastD ""⟩
        | .mapping _ => none) ∧
      tree.pluralizations parent = order.filterMap (fun node =>
        match node.2 with
        | .leaf _ => none
        | .mapping m =>
          if ∃ key ∈ Entries.keys m, key ∈ pluralizationKeys then some ⟨joined parent node.1, m⟩ else none) := by
  have preorder := preorder_nodes (.mapping tree)
  refine ⟨nodes (.mapping tree), preorder, fun distinct => ?_, fun parent => ⟨?_, ?_⟩⟩
  · exact ⟨preorder.nodup_paths distinct, fun other h => h.unique preorder distinct⟩
  · rw [translations_eq_filterMap]
    refine List.filterMap_congr fun node _ => ?_
    obtain ⟨path, leaf | m⟩ := node
    · simp only [translation?, dottedFrom_eq_joined]
    · rfl
  · rw [pluralizations_eq_filterMap]
    refine List.filterMap_congr fun node _ => ?_
    obtain ⟨path, leaf | m⟩ := node
    · rfl
    · simp only [pluralization?, dottedFrom_eq_joined, Rule.hasPluralizationKey_iff]

/-- A tree with empty keys at its root and below a key, both above pluralization keys. -/
def Mapping.emptyKeys : Mapping :=
  [("", .mapping [("one", .leaf "x"), ("few", .mapping [])]), ("a", .mapping [("", .mapping [("other", .leaf "y")])])]

theorem Mapping.walks_restrict_preorder_emptyKeys : Distinct (.mapping emptyKeys) ∧
    ∃ order, Preorder (.mapping emptyKeys) order ∧ (∀ other, Preorder (.mapping emptyKeys) other → other = order) ∧
      emptyKeys.translations "" = [⟨"one", "x", "one"⟩, ⟨"a..other", "y", "other"⟩] ∧
      order.filterMap (fun node =>
        match node.2 with
        | .leaf text => some ⟨joined "" node.1, text, node.1.getLastD ""⟩
        | .mapping _ => none) = emptyKeys.translations "" := by
  have distinct : Distinct (.mapping emptyKeys) := by decide +kernel
  obtain ⟨order, preorder, single, walks⟩ := walks_restrict_preorder emptyKeys
  exact ⟨distinct, order, preorder, (single distinct).2, by decide +kernel, (walks "").1.symm⟩

end LocaleLint
