import LocaleLint.Proofs.Tree.Paths

/-! # A leaf with another text

Replacing the text of one leaf changes the leaf and the mappings on the way to it, and leaves every node at its
place. What is collected from the nodes one after another is then the same but for what comes from that way. -/

namespace LocaleLint

namespace Entries
variable {κ α : Type} [BEq κ]

/-- The entries with the value of a key changed. -/
def adjust (entries : Entries κ α) (key : κ) (change : α → α) : Entries κ α :=
  match entries with
  | [] => []
  | (k, v) :: rest => if k == key then (k, change v) :: rest else (k, v) :: adjust rest key change

theorem adjust_of_get? [LawfulBEq κ] {entries : Entries κ α} {key : κ} {value : α} (h : get? entries key = some value)
    (change : α → α) : ∃ before after, entries = before ++ (key, value) :: after ∧
      adjust entries key change = before ++ (key, change value) :: after := by
  induction entries with
  | nil => cases h
  | cons entry rest ih =>
    obtain ⟨k, v⟩ := entry
    by_cases same : k = key
    · subst same
      obtain rfl : v = value := by simpa [get?] using h
      exact ⟨[], rest, rfl, by simp [adjust]⟩
    · have later : get? rest key = some value := by simpa [get?, same] using h
      obtain ⟨before, after, rfl, changed⟩ := ih later
      exact ⟨(k, v) :: before, after, rfl, by simp [adjust, same, changed]⟩

end Entries

namespace Tree

/-- The tree with another text at the leaf to which a path leads. -/
def withText (text : String) : List String → Tree → Tree
  | [], .leaf _ => .leaf text
  | key :: path, .mapping m => .mapping (Entries.adjust m key (withText text path))
  | _, tree => tree

/-- Whether two trees differ in the text of one leaf, to which a path leads in both. -/
inductive Edited (old new : String) : List String → Tree → Tree → Prop
  | leaf : Edited old new [] (.leaf old) (.leaf new)
  | entry {before after : List (String × Tree)} {key : String} {path : List String} {sub other : Tree}
      (below : Edited old new path sub other) :
    Edited old new (key :: path) (.mapping (before ++ (key, sub) :: after)) (.mapping (before ++ (key, other) :: after))

theorem edited_withText {tree : Tree} {path : List String} {old : String} (h : follow path tree = some (.leaf old))
    (new : String) : Edited old new path tree (withText new path tree) := by
  induction path generalizing tree with
  | nil =>
    obtain rfl := Option.some.inj h
    exact .leaf
  | cons key rest ih =>
    cases tree with
    | leaf text => cases h
    | mapping m =>
      obtain ⟨sub, hsub, hrest⟩ := Option.bind_eq_some_iff.mp h
      obtain ⟨before, after, rfl, changed⟩ := Entries.adjust_of_get? hsub (withText new rest)
      rw [withText, changed]
      exact .entry (ih hrest)

theorem nodesBelow_append (es fs : List (String × Tree)) : nodesBelow (es ++ fs) = nodesBelow es ++ nodesBelow fs := by
  induction es with
  | nil => rfl
  | cons e rest ih => rw [List.cons_append, nodesBelow, nodesBelow, ih, List.append_assoc]

section Collected
variable {β : Type} {f : List String × Tree → List β} {old new : String} {path : List String} {tree other : Tree}

theorem flatMap_nodes_entry (before after : List (String × Tree)) (key : String) (sub : Tree) :
    (nodes (.mapping (before ++ (key, sub) :: after))).flatMap f =
      f ([], .mapping (before ++ (key, sub) :: after)) ++ ((nodesBelow before).flatMap f ++
        ((nodes sub).flatMap (fun node => f (key :: node.1, node.2)) ++ (nodesBelow after).flatMap f)) := by
  rw [nodes, nodesBelow_append, nodesBelow, List.flatMap_cons, List.flatMap_append, List.flatMap_append,
    List.flatMap_map]

/-- What is collected is the same if it is the same at every node on the way to the leaf. -/
theorem Edited.flatMap_nodes_eq (h : Edited old new path tree other)
    (same : ∀ way rest n m, path = way ++ rest → Edited old new rest n m → f (way, n) = f (way, m)) :
    (nodes tree).flatMap f = (nodes other).flatMap f := by
  induction h generalizing f with
  | leaf =>
    have root := same [] [] _ _ rfl .leaf
    simp [nodes, root]
  | @entry before after key path sub other below ih =>
    have root : f ([], .mapping (before ++ (key, sub) :: after)) = f ([], .mapping (before ++ (key, other) :: after)) :=
      same [] (key :: path) _ _ rfl (.entry below)
    have inner := ih (f := fun node => f (key :: node.1, node.2)) fun way rest n m split edited =>
      same (key :: way) rest n m (by rw [split, List.cons_append]) edited
    rw [flatMap_nodes_entry, flatMap_nodes_entry, root, inner]

/-- What is collected differs in one place only if it is the same at every node on the way to the leaf but one. -/
theorem Edited.flatMap_nodes_at (h : Edited old new path tree other) {way rest : List String}
    (split : path = way ++ rest) (same : ∀ way' rest' n m, path = way' ++ rest' → way' ≠ way →
      Edited old new rest' n m → f (way', n) = f (way', m)) :
    ∃ n m before after, Edited old new rest n m ∧ (nodes tree).flatMap f = before ++ f (way, n) ++ after ∧
      (nodes other).flatMap f = before ++ f (way, m) ++ after := by
  induction h generalizing f way with
  | leaf =>
    obtain ⟨rfl, rfl⟩ := List.append_eq_nil_iff.mp split.symm
    exact ⟨_, _, [], [], .leaf, by simp [nodes], by simp [nodes]⟩
  | @entry front back key path sub other below ih =>
    cases way with
    | nil =>
      -- The root is the node that may differ, so that nothing below it does.
      have inner := below.flatMap_nodes_eq (f := fun node => f (key :: node.1, node.2)) fun way rest n m split edited =>
        same (key :: way) rest n m (by rw [split, List.cons_append]) (List.cons_ne_nil _ _) edited
      obtain rfl : key :: path = rest := split
      refine ⟨_, _, [], _, .entry below, flatMap_nodes_entry .., ?_⟩
      rw [flatMap_nodes_entry, inner]
      rfl
    | cons k way =>
      obtain ⟨rfl, tail⟩ := List.cons.inj split
      have root : f ([], .mapping (front ++ (key, sub) :: back)) = f ([], .mapping (front ++ (key, other) :: back)) :=
        same [] (key :: path) _ _ rfl (List.cons_ne_nil _ _).symm (.entry below)
      obtain ⟨n, m, before, after, edited, inner, inner'⟩ := ih (f := fun node => f (key :: node.1, node.2)) tail
        fun way' rest' n m split ne edited =>
          same (key :: way') rest' n m (by rw [split, List.cons_append]) (fun h => ne (List.cons.inj h).2) edited
      refine ⟨n, m, f ([], .mapping (front ++ (key, other) :: back)) ++ (nodesBelow front).flatMap f ++ before,
        after ++ (nodesBelow back).flatMap f, edited, ?_, ?_⟩
      · rw [flatMap_nodes_entry, inner, root]
        simp only [List.append_assoc]
      · rw [flatMap_nodes_entry, inner']
        simp only [List.append_assoc]

end Collected

end Tree

end LocaleLint
