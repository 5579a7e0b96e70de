import LocaleLint.Proofs.Yaml.Steps

/-! # What merging keeps

The merge entries of a mapping are replaced by entries that come before its own ones. Its own entries stay as
they were written and in their order, and a mapping without merge entries is never changed. -/

namespace LocaleLint.Yaml

namespace Graph
variable {g g' g'' : Graph} {id : NodeId}

/-- The entries of a node, none if it is no mapping. -/
def entries (g : Graph) (id : NodeId) : List (NodeId × NodeId) := (Fill.entriesOf? g id).getD []

/-- Whether an entry merges others in its place. -/
def IsMerge (g : Graph) (entry : NodeId × NodeId) : Prop := (g.node entry.1).tag = .merge

instance : DecidablePred g.IsMerge := fun entry => inferInstanceAs (Decidable ((g.node entry.1).tag = .merge))

/-- The entries among some that are no merge entries. -/
def own (g : Graph) (entries : List (NodeId × NodeId)) : List (NodeId × NodeId) :=
  entries.filter fun entry => ¬ g.IsMerge entry

/-- Whether there are no merge entries among some. -/
def Plain (g : Graph) (entries : List (NodeId × NodeId)) : Prop := ∀ entry ∈ entries, ¬ g.IsMerge entry

theorem own_of_plain {entries : List (NodeId × NodeId)} (h : g.Plain entries) : g.own entries = entries :=
  List.filter_eq_self.mpr fun entry hentry => decide_eq_true (h entry hentry)

theorem own_append (e e' : List (NodeId × NodeId)) : g.own (e ++ e') = g.own e ++ g.own e' :=
  List.filter_append _ _

theorem entries_of_mapping {entries : List (NodeId × NodeId)} (h : (g.node id).content = .mapping entries) :
    g.entries id = entries := by
  rw [Graph.entries, Fill.entriesOf?, h]
  rfl

/-- A node that has merge entries is a mapping. -/
theorem mapping_of_not_plain (merges : ¬ g.Plain (g.entries id)) :
    (g.node id).content = .mapping (g.entries id) := by
  rw [Graph.entries, Fill.entriesOf?] at merges ⊢
  cases hcontent : (g.node id).content with
  | mapping entries => rfl
  | scalar text =>
    rw [hcontent] at merges
    exact absurd (List.forall_mem_nil _) merges
  | sequence items =>
    rw [hcontent] at merges
    exact absurd (List.forall_mem_nil _) merges

/-! ### Changes of nodes -/

theorem node_modify (f : Node → Node) (j : NodeId) :
    Graph.node (g.modify id f) j = if id = j ∧ j < g.size then f (g.node j) else g.node j := by
  rw [node, node, Array.getD_eq_getD_getElem?, Array.getD_eq_getD_getElem?, Array.getElem?_modify]
  by_cases h : id = j
  · subst h
    by_cases inside : id < g.size
    · simp [inside]
    · simp [inside]
  · simp [h]

theorem node_setContent (content : Content) (j : NodeId) :
    (g.setContent id content).node j = if id = j ∧ j < g.size then { g.node j with content } else g.node j :=
  node_modify _ j

theorem node_setTag (tag : Tag) (j : NodeId) :
    (g.setTag id tag).node j = if id = j ∧ j < g.size then { g.node j with tag } else g.node j :=
  node_modify _ j

theorem size_setContent (content : Content) : (g.setContent id content).size = g.size := Array.size_modify

theorem size_setTag (tag : Tag) : (g.setTag id tag).size = g.size := Array.size_modify

/-- A node outside of the graph is no mapping. -/
theorem lt_size_of_mapping {entries : List (NodeId × NodeId)} (h : (g.node id).content = .mapping entries) :
    id < g.size := by
  refine Nat.lt_of_not_le fun outside => ?_
  rw [node, Array.getD_eq_getD_getElem?, Array.getElem?_eq_none outside] at h
  cases h

theorem entries_setContent {e : List (NodeId × NodeId)} (inside : id < g.size) :
    (g.setContent id (.mapping e)).entries id = e :=
  entries_of_mapping (by rw [node_setContent, if_pos ⟨rfl, inside⟩])

/-- How a graph may come from another one by merging: value marks may have become texts, and mappings that have
    merge entries may have other entries before their own ones. -/
structure Flattens (g g' : Graph) : Prop where
  size : g'.size = g.size
  tag : ∀ id, (g'.node id).tag = (g.node id).tag ∨ (g.node id).tag = .value ∧ (g'.node id).tag = .text
  content : ∀ id, (g'.node id).content = (g.node id).content ∨ ∃ e e',
    (g.node id).content = .mapping e ∧ (g'.node id).content = .mapping e' ∧ ¬ g.Plain e ∧ g.own e <:+ g.own e'

namespace Flattens

theorem refl (g : Graph) : g.Flattens g := ⟨rfl, fun _ => Or.inl rfl, fun _ => Or.inl rfl⟩

theorem isMerge_iff (h : g.Flattens g') {entry : NodeId × NodeId} : g'.IsMerge entry ↔ g.IsMerge entry := by
  rw [IsMerge, IsMerge]
  rcases h.tag entry.1 with same | ⟨before, after⟩
  · rw [same]
  · rw [before, after]
    exact ⟨nofun, nofun⟩

theorem tag_mapping (h : g.Flattens g') : (g'.node id).tag = .mapping ↔ (g.node id).tag = .mapping := by
  rcases h.tag id with same | ⟨before, after⟩
  · rw [same]
  · rw [before, after]
    exact ⟨nofun, nofun⟩

theorem plain_iff (h : g.Flattens g') {e : List (NodeId × NodeId)} : g'.Plain e ↔ g.Plain e := by
  simp only [Plain, h.isMerge_iff]

theorem own_eq (h : g.Flattens g') (e : List (NodeId × NodeId)) : g'.own e = g.own e := by
  simp only [own, h.isMerge_iff]

theorem trans (h : g.Flattens g') (h' : g'.Flattens g'') : g.Flattens g'' := by
  refine ⟨h'.size.trans h.size, fun id => ?_, fun id => ?_⟩
  · rcases h'.tag id with same | ⟨before, after⟩
    · rw [same]
      exact h.tag id
    · rcases h.tag id with same | ⟨-, text⟩
      · exact Or.inr ⟨same ▸ before, after⟩
      · rw [text] at before
        cases before
  · rcases h'.content id with same | ⟨e₁, e₂, h₁, h₂, merges, suffix⟩
    · rw [same]
      exact h.content id
    · rw [h.plain_iff] at merges
      rw [h.own_eq, h.own_eq] at suffix
      rcases h.content id with same | ⟨e, e₁', hid, h₁', merges', suffix'⟩
      · exact Or.inr ⟨e₁, e₂, same ▸ h₁, h₂, merges, suffix⟩
      · rw [h₁] at h₁'
        cases h₁'
        exact Or.inr ⟨e, e₂, hid, h₂, merges', suffix'.trans suffix⟩

/-- A mapping without merge entries is not changed. -/
theorem entries_of_plain (h : g.Flattens g') (plain : g.Plain (g.entries id)) : g'.entries id = g.entries id := by
  rcases h.content id with same | ⟨e, e', hid, -, merges, -⟩
  · rw [Graph.entries, Graph.entries, Fill.entriesOf?, Fill.entriesOf?, same]
  · rw [entries_of_mapping hid] at plain
    exact absurd plain merges

/-- The own entries of a mapping stay the last ones of it. -/
theorem own_entries (h : g.Flattens g') (id : NodeId) : g.own (g.entries id) <:+ g.own (g'.entries id) := by
  rcases h.content id with same | ⟨e, e', hid, hid', -, suffix⟩
  · have unchanged : g'.entries id = g.entries id := by
      rw [Graph.entries, Graph.entries, Fill.entriesOf?, Fill.entriesOf?, same]
    exact unchanged ▸ List.suffix_rfl
  · rwa [entries_of_mapping hid, entries_of_mapping hid']

/-- The entries of a mapping that has merge entries may be replaced. -/
theorem setContent (h : g.Flattens g') {e e' : List (NodeId × NodeId)} (hid : (g.node id).content = .mapping e)
    (merges : ¬ g.Plain e) (suffix : g.own e <:+ g.own e') : g.Flattens (g'.setContent id (.mapping e')) := by
  refine ⟨(size_setContent _).trans h.size, fun j => ?_, fun j => ?_⟩
  · have : ((g'.setContent id (.mapping e')).node j).tag = (g'.node j).tag := by
      rw [node_setContent]
      split <;> rfl
    rw [this]
    exact h.tag j
  · rw [node_setContent]
    by_cases same : id = j ∧ j < g'.size
    · obtain ⟨rfl, inside⟩ := same
      rw [if_pos ⟨rfl, inside⟩]
      exact Or.inr ⟨e, e', hid, rfl, merges, suffix⟩
    · rw [if_neg same]
      exact h.content j

theorem plain_setContent (h : g.Flattens g') {e e' : List (NodeId × NodeId)} (hid : (g.node id).content = .mapping e)
    (merges : ¬ g.Plain e) (suffix : g.own e <:+ g.own e') (plain : g.Plain e') :
    (g'.setContent id (.mapping e')).Plain ((g'.setContent id (.mapping e')).entries id) := by
  have inside : id < g'.size := by
    rw [h.size]
    exact lt_size_of_mapping hid
  rwa [(h.setContent hid merges suffix).plain_iff, entries_setContent inside]

theorem setTag (h : (g.node id).tag = .value) : g.Flattens (g.setTag id .text) := by
  refine ⟨size_setTag _, fun j => ?_, fun j => Or.inl ?_⟩
  · rw [node_setTag]
    by_cases same : id = j ∧ j < g.size
    · rw [if_pos same, ← same.1]
      exact Or.inr ⟨h, rfl⟩
    · rw [if_neg same]
      exact Or.inl rfl
  · rw [node_setTag]
    split <;> rfl

theorem retagKeys (g : Graph) (entries : List (NodeId × NodeId)) : g.Flattens (Fill.retagKeys g entries) := by
  rw [Fill.retagKeys]
  induction entries generalizing g with
  | nil => exact refl g
  | cons entry rest ih =>
    rw [List.foldl_cons]
    split
    · rename_i mark
      exact (setTag mark).trans (ih _)
    · exact ih g

end Flattens

end Graph

namespace Fill
variable {graph : Graph} {id : NodeId} {s s' : Filling}

theorem splitMerge?_eq_none {entries : List (NodeId × NodeId)} (h : splitMerge? graph entries = none) :
    graph.Plain entries := by
  induction entries with
  | nil => exact List.forall_mem_nil _
  | cons entry rest ih =>
    obtain ⟨key, value⟩ := entry
    rw [splitMerge?] at h
    split at h
    · cases h
    · rename_i other
      exact List.forall_mem_cons.mpr ⟨other, ih (Option.map_eq_none_iff.mp h)⟩

/-- Taking a merge entry out leaves the own entries. -/
theorem splitMerge?_eq_some {entries others : List (NodeId × NodeId)} {source : NodeId}
    (h : splitMerge? graph entries = some (source, others)) :
    ¬ graph.Plain entries ∧ graph.own others = graph.own entries := by
  induction entries generalizing others with
  | nil => cases h
  | cons entry rest ih =>
    obtain ⟨key, value⟩ := entry
    rw [splitMerge?] at h
    split at h
    · rename_i merges
      cases h
      have merges : graph.IsMerge (key, source) := merges
      refine ⟨fun plain => plain _ List.mem_cons_self merges, ?_⟩
      rw [Graph.own, Graph.own, List.filter_cons_of_neg]
      simpa using merges
    · rename_i other
      obtain ⟨⟨found, left⟩, hfound, hothers⟩ := Option.map_eq_some_iff.mp h
      cases hothers
      obtain ⟨merges, same⟩ := ih hfound
      refine ⟨fun plain => merges fun entry hentry => plain entry (List.mem_cons_of_mem _ hentry), ?_⟩
      simp only [Graph.own, List.filter_cons] at same ⊢
      rw [same]

/-- How a state may come from another one by merging: only the graph is changed. -/
structure Merged (s s' : Filling) : Prop where
  graph : s.graph.Flattens s'.graph
  rest : s' = { s with graph := s'.graph }

namespace Merged

theorem refl (s : Filling) : Merged s s := ⟨.refl _, rfl⟩

theorem trans {s'' : Filling} (h : Merged s s') (h' : Merged s' s'') : Merged s s'' :=
  ⟨h.graph.trans h'.graph, by rw [h'.rest, h.rest]⟩

end Merged

/-- What flattening mappings with some fuel does. -/
structure Flattening (n : Nat) : Prop where
  flatten : ∀ {id s s'}, Fill.flatten id n s = .ok ((), s') → Merged s s' ∧ s'.graph.Plain (s'.graph.entries id)
  /-- All merge entries are taken, and what they merge has none. A mapping that has none stays as it is. -/
  takeMerges : ∀ {id merged s r s'}, Fill.takeMerges id merged n s = .ok (r, s') →
    Merged s s' ∧ s'.graph.Plain (s'.graph.entries id) ∧ (s.graph.Plain merged → s'.graph.Plain r) ∧
      (s.graph.Plain (s.graph.entries id) → r = merged)
  flattened : ∀ {id s r s'}, Fill.flattened id n s = .ok (r, s') →
    Merged s s' ∧ r = s'.graph.entries id ∧ s'.graph.Plain r

theorem flattening_flattened {n : Nat} (ih : Flattening n) {r : List (NodeId × NodeId)}
    (h : flattened id (n + 1) s = .ok (r, s')) : Merged s s' ∧ r = s'.graph.entries id ∧ s'.graph.Plain r := by
  rw [flattened] at h
  obtain ⟨⟨⟩, t, hflatten, hread⟩ := bind_ok h
  rw [get_bind] at hread
  obtain ⟨rfl, rfl⟩ := pure_ok hread
  obtain ⟨merged, plain⟩ := ih.flatten hflatten
  exact ⟨merged, rfl, plain⟩

/-- The entries that a list of mappings merges are those of the mappings, each flattened. -/
theorem mapM_flattened {n : Nat} (ih : Flattening n) {items : List NodeId} {parts : List (List (NodeId × NodeId))}
    (h : (items.mapM fun item => do
        if (entriesOf? (← get).graph item).isNone then malformed
        flattened item n : Fill (List (List (NodeId × NodeId)))) s = .ok (parts, s')) :
    Merged s s' ∧ s'.graph.Plain parts.reverse.flatten := by
  have run := mapM_ok (I := fun _ => True) (R := Merged) (Q := fun _ part t => t.graph.Plain part) Merged.refl
    Merged.trans (fun plain merged => merged.graph.plain_iff.mpr plain) (fun item _ {s part t} _ h => by
      rw [get_bind] at h
      split at h
      · cases h
      · obtain ⟨merged, -, plain⟩ := ih.flattened h
        exact ⟨trivial, merged, plain⟩) trivial h
  refine ⟨run.2.1, fun entry hentry => ?_⟩
  obtain ⟨part, hpart, hentry⟩ := List.mem_flatten.mp hentry
  exact forall_of_forall₂ run.2.2 part (List.mem_reverse.mp hpart) entry hentry

/-- A mapping that has a merge entry still has its own entries when that one is taken out. -/
theorem merged_of_split {source : NodeId} {others : List (NodeId × NodeId)}
    (h : splitMerge? s.graph (s.graph.entries id) = some (source, others)) :
    Merged s { s with graph := s.graph.setContent id (.mapping others) } := by
  obtain ⟨merges, same⟩ := splitMerge?_eq_some h
  have mapping := Graph.mapping_of_not_plain merges
  exact ⟨(Graph.Flattens.refl _).setContent mapping merges (same ▸ List.suffix_rfl), rfl⟩

/-- The entries that are merged from a source come from mappings that have been flattened. -/
theorem takeMerges_ok {n : Nat} (ih : Flattening n) {merged r others : List (NodeId × NodeId)} {source : NodeId}
    (hsplit : splitMerge? s.graph (s.graph.entries id) = some (source, others))
    (h : takeMerges id merged (n + 1) s = .ok (r, s')) :
    ∃ entries t, Merged { s with graph := s.graph.setContent id (.mapping others) } t ∧ t.graph.Plain entries ∧
      takeMerges id (merged ++ entries) n t = .ok (r, s') := by
  rw [Graph.entries] at hsplit
  rw [takeMerges, get_bind, hsplit] at h
  simp only [set_bind] at h
  cases hcontent : (s.graph.node source).content with
  | scalar text =>
    rw [hcontent] at h
    cases h
  | mapping entries =>
    rw [hcontent] at h
    obtain ⟨entries, t, hsource, hrest⟩ := bind_ok h
    obtain ⟨source, -, plain⟩ := ih.flattened hsource
    exact ⟨entries, t, source, plain, hrest⟩
  | sequence items =>
    rw [hcontent] at h
    obtain ⟨parts, t, hsource, hrest⟩ := bind_ok h
    obtain ⟨source, plain⟩ := mapM_flattened ih hsource
    exact ⟨parts.reverse.flatten, t, source, plain, hrest⟩

theorem flattening_takeMerges {n : Nat} (ih : Flattening n) {merged r : List (NodeId × NodeId)}
    (h : takeMerges id merged (n + 1) s = .ok (r, s')) :
    Merged s s' ∧ s'.graph.Plain (s'.graph.entries id) ∧ (s.graph.Plain merged → s'.graph.Plain r) ∧
      (s.graph.Plain (s.graph.entries id) → r = merged) := by
  cases hsplit : splitMerge? s.graph (s.graph.entries id) with
  | none =>
    have plain := splitMerge?_eq_none hsplit
    rw [Graph.entries] at hsplit
    rw [takeMerges, get_bind, hsplit] at h
    obtain ⟨rfl, rfl⟩ := pure_ok h
    exact ⟨.refl s', plain, fun plain => plain, fun _ => rfl⟩
  | some found =>
    obtain ⟨source, others⟩ := found
    have taken := merged_of_split hsplit
    obtain ⟨entries, t, source, plain, rest⟩ := takeMerges_ok ih hsplit h
    obtain ⟨others, last, new, -⟩ := ih.takeMerges rest
    -- What is merged had no merge entries when it was taken, and has none after later merges.
    have before : Merged s t := taken.trans source
    refine ⟨before.trans others, last, fun own => new ?_, fun none => absurd none (splitMerge?_eq_some hsplit).1⟩
    exact List.forall_mem_append.mpr ⟨before.graph.plain_iff.mpr own, plain⟩

theorem flattening_flatten {n : Nat} (ih : Flattening n) (h : flatten id (n + 1) s = .ok ((), s')) :
    Merged s s' ∧ s'.graph.Plain (s'.graph.entries id) := by
  rw [flatten] at h
  obtain ⟨merged, t, htake, hput⟩ := bind_ok h
  obtain rfl := modify_ok hput
  obtain ⟨taken, last, new, same⟩ := ih.takeMerges htake
  have plain : t.graph.Plain merged := new (List.forall_mem_nil _)
  have retagged := Graph.Flattens.retagKeys t.graph (t.graph.entries id)
  have all := taken.graph.trans retagged
  by_cases none : merged = []
  · subst none
    refine ⟨⟨all, by rw [taken.rest]⟩, ?_⟩
    show (retagKeys t.graph (t.graph.entries id)).Plain ((retagKeys t.graph (t.graph.entries id)).entries id)
    rwa [retagged.plain_iff, retagged.entries_of_plain last]
  · have merges : ¬ s.graph.Plain (s.graph.entries id) := mt same none
    have hid := Graph.mapping_of_not_plain merges
    -- The own entries that are left come after all that is merged.
    have suffix : s.graph.own (s.graph.entries id) <:+ s.graph.own (merged ++ t.graph.entries id) := by
      rw [Graph.own_append]
      exact (taken.graph.own_entries id).trans (List.suffix_append _ _)
    have some : merged.isEmpty = false := List.isEmpty_eq_false_iff.mpr none
    refine ⟨⟨?_, by rw [taken.rest]⟩, ?_⟩
    · simp only [some]
      exact all.setContent hid merges suffix
    · simp only [some]
      refine all.plain_setContent hid merges suffix ?_
      rw [← taken.graph.plain_iff]
      exact List.forall_mem_append.mpr ⟨plain, last⟩

theorem flattening (n : Nat) : Flattening n := by
  induction n with
  | zero => exact ⟨fun h => (by cases h), fun h => (by cases h), fun h => (by cases h)⟩
  | succ n ih => exact ⟨flattening_flatten ih, flattening_takeMerges ih, flattening_flattened ih⟩

end Fill

end LocaleLint.Yaml
