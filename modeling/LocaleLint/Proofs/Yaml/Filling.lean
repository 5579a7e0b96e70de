import LocaleLint.Proofs.Yaml.Merge

/-! # What is known while a document is built

Each node is given one value when it is first met. Containers belong to one node each; those that have been filled
and are mappings hold what the entries of their nodes hold. -/

namespace LocaleLint.Yaml

/-! ### Values of scalars -/

theorem exists_of_map_ok {ε α β : Type} {x : Except ε α} {f : α → β} {b : β} (h : x.map f = .ok b) :
    ∃ a, f a = b := by
  cases x with
  | error e => cases h
  | ok a => exact ⟨a, Except.ok.inj h⟩

theorem not_mapping_of_timestampValue {s : List Char} {v : Value} (h : timestampValue s = .ok v)
    (entries : List (Value × Value)) : v ≠ .mapping entries := by
  rintro rfl
  rw [timestampValue] at h
  split at h
  · cases h
  · simp only at h
    split at h
    · split at h <;> cases h
    · split at h <;> cases h

/-- The value of a scalar is no mapping. -/
theorem not_mapping_of_scalarValue {tag : Tag} {self : Nat} {s : List Char} {v : Value}
    (h : scalarValue tag self s = .ok v) (entries : List (Value × Value)) : v ≠ .mapping entries := by
  rintro rfl
  cases tag with
  | bool =>
    rw [scalarValue] at h
    split at h <;> cases h
  | int =>
    obtain ⟨n, h⟩ := exists_of_map_ok h
    cases h
  | float =>
    obtain ⟨x, h⟩ := exists_of_map_ok h
    cases x <;> cases h
  | binary =>
    obtain ⟨bytes, h⟩ := exists_of_map_ok h
    cases h
  | timestamp => exact not_mapping_of_timestampValue h entries rfl
  | _ => cases h

/-- Whether a value is that of the text of a node under its type. The text of a scalar is its own. -/
def Graph.Writes (g : Graph) (id : NodeId) (v : Value) : Prop :=
  ∃ text : String, scalarValue (g.node id).tag id text.toList = .ok v ∧
    ∀ own, (g.node id).content = .scalar own → text = own

theorem Graph.Flattens.writes {g g' : Graph} {id : NodeId} {v : Value} (h : g.Flattens g') (writes : g.Writes id v) :
    g'.Writes id v := by
  obtain ⟨text, htext, own⟩ := writes
  have tag : (g'.node id).tag = (g.node id).tag := by
    rcases h.tag id with same | ⟨mark, -⟩
    · exact same
    · rw [mark] at htext
      cases htext
  refine ⟨text, by rw [tag, htext], fun t ht => own t ?_⟩
  rcases h.content id with same | ⟨e, e', -, he', -⟩
  · rw [← same, ht]
  · rw [ht] at he'
    cases he'

namespace Filling
variable {s t u : Filling} {id : NodeId}

/-- The value of a node that was met. -/
def refOf? (s : Filling) (id : NodeId) : Option Ref := s.met.getD id none

/-- The value of a node, nothing where there is no such node. -/
def refOf (s : Filling) (id : NodeId) : Ref := (s.refOf? id).getD (.scalar .null)

/-- The value of a node that is a key. -/
def keyOf (s : Filling) (id : NodeId) : Value :=
  match s.refOf id with
  | .scalar v => v
  | .container _ => .null

/-- Whether a node has its value for good. -/
def Met (s : Filling) (id : NodeId) : Prop := s.met.size ≤ id ∨ (s.refOf? id).isSome = true

/-- The entries of a node by the values of their nodes. -/
def pairsOf (s : Filling) (id : NodeId) : List (Value × Ref) :=
  (s.graph.entries id).map fun entry => (s.keyOf entry.1, s.refOf entry.2)

/-- Whether all entries of a node have their values. -/
structure Resolved (s : Filling) (id : NodeId) : Prop where
  plain : s.graph.Plain (s.graph.entries id)
  met : ∀ entry ∈ s.graph.entries id, s.Met entry.1 ∧ s.Met entry.2
  keys : ∀ entry ∈ s.graph.entries id, ∃ v, s.refOf entry.1 = .scalar v

/-- Whether a container holds the mapping that a node writes. -/
structure Holds (s : Filling) (id : NodeId) (number : Nat) : Prop extends Resolved s id where
  cell : s.cells[number]? = some (.mapping (Entries.ofList Value.sameKey (s.pairsOf id)))

/-- What is known of values and containers while those of `due` are still to be filled besides the ones that
    wait. -/
structure Sound (s : Filling) (due : List (NodeId × Nat)) : Prop where
  size : s.met.size = s.graph.size
  scalar : ∀ {id v}, s.refOf? id = some (.scalar v) → s.graph.Writes id v
  inside : ∀ {id number}, s.refOf? id = some (.container number) → number < s.cells.size
  /-- A container belongs to one node. -/
  injective : ∀ {id id' number}, s.refOf? id = some (.container number) → s.refOf? id' = some (.container number) →
    id = id'
  pending : ∀ p ∈ s.waiting ++ due, s.refOf? p.1 = some (.container p.2)
  filled : ∀ {id number}, s.refOf? id = some (.container number) → (s.graph.node id).tag = .mapping →
    (id, number) ∈ s.waiting ++ due ∨ s.Holds id number
  /-- A container that is a mapping is the value of a node that is one. -/
  origin : ∀ {number : Nat} {entries}, s.cells[number]? = some (.mapping entries) →
    ∃ id, s.refOf? id = some (.container number) ∧ (s.graph.node id).tag = .mapping

/-- What stays as it is while more is built. -/
structure Keeps (s t : Filling) : Prop where
  graph : s.graph.Flattens t.graph
  size : t.met.size = s.met.size
  met : ∀ {id ref}, s.refOf? id = some ref → t.refOf? id = some ref

/-- What stays as it is while no container is filled. -/
structure Grows (s t : Filling) : Prop extends Keeps s t where
  cells : ∀ {number : Nat} {cell}, s.cells[number]? = some cell → t.cells[number]? = some cell
  waiting : s.waiting <:+ t.waiting

namespace Keeps

theorem refl (s : Filling) : Keeps s s := ⟨.refl _, rfl, id⟩

theorem trans (h : Keeps s t) (h' : Keeps t u) : Keeps s u :=
  ⟨h.graph.trans h'.graph, h'.size.trans h.size, fun ref => h'.met (h.met ref)⟩

theorem isMet (h : Keeps s t) (hid : s.Met id) : t.Met id := by
  rcases hid with outside | met
  · exact Or.inl (h.size ▸ outside)
  · obtain ⟨ref, href⟩ := Option.isSome_iff_exists.mp met
    exact Or.inr (Option.isSome_iff_exists.mpr ⟨ref, h.met href⟩)

theorem refOf_eq (h : Keeps s t) (hid : s.Met id) : t.refOf id = s.refOf id := by
  rcases hid with outside | met
  · have none : ∀ {u : Filling}, u.met.size ≤ id → u.refOf? id = none := fun outside => by
      rw [refOf?, Array.getD_eq_getD_getElem?, Array.getElem?_eq_none outside]
      rfl
    rw [refOf, refOf, none outside, none (h.size ▸ outside)]
  · obtain ⟨ref, href⟩ := Option.isSome_iff_exists.mp met
    rw [refOf, refOf, href, h.met href]

theorem keyOf_eq (h : Keeps s t) (hid : s.Met id) : t.keyOf id = s.keyOf id := by
  rw [keyOf, keyOf, h.refOf_eq hid]

theorem entries_eq (h : Keeps s t) (resolved : s.Resolved id) : t.graph.entries id = s.graph.entries id :=
  h.graph.entries_of_plain resolved.plain

theorem pairsOf_eq (h : Keeps s t) (resolved : s.Resolved id) : t.pairsOf id = s.pairsOf id := by
  rw [pairsOf, pairsOf, h.entries_eq resolved]
  refine List.map_congr_left fun entry hentry => ?_
  obtain ⟨key, value⟩ := resolved.met entry hentry
  rw [h.keyOf_eq key, h.refOf_eq value]

theorem resolved (h : Keeps s t) (resolved : s.Resolved id) : t.Resolved id := by
  refine ⟨?_, ?_, ?_⟩
  · rw [h.entries_eq resolved, h.graph.plain_iff]
    exact resolved.plain
  · rw [h.entries_eq resolved]
    exact fun entry hentry => ⟨h.isMet (resolved.met entry hentry).1, h.isMet (resolved.met entry hentry).2⟩
  · rw [h.entries_eq resolved]
    intro entry hentry
    rw [h.refOf_eq (resolved.met entry hentry).1]
    exact resolved.keys entry hentry

/-- What a container holds stays if the container does. -/
theorem holds (h : Keeps s t) {number : Nat} (same : t.cells[number]? = s.cells[number]?) (holds : s.Holds id number) :
    t.Holds id number :=
  ⟨h.resolved holds.toResolved, by rw [same, h.pairsOf_eq holds.toResolved, holds.cell]⟩

end Keeps

namespace Grows

theorem refl (s : Filling) : Grows s s := ⟨.refl s, id, List.suffix_rfl⟩

theorem trans (h : Grows s t) (h' : Grows t u) : Grows s u :=
  ⟨h.toKeeps.trans h'.toKeeps, fun cell => h'.cells (h.cells cell), h.waiting.trans h'.waiting⟩

theorem holds (h : Grows s t) {number : Nat} (holds : s.Holds id number) : t.Holds id number :=
  h.toKeeps.holds ((h.cells holds.cell).trans holds.cell.symm) holds

end Grows

/-- Whether a node has a value for good, and which. -/
def Shows (s : Filling) (id : NodeId) (ref : Ref) : Prop := s.Met id ∧ s.refOf id = ref

theorem Shows.keeps {ref : Ref} (shows : s.Shows id ref) (h : Keeps s t) : t.Shows id ref :=
  ⟨h.isMet shows.1, (h.refOf_eq shows.1).trans shows.2⟩

theorem shows_of_met {ref : Ref} (h : s.refOf? id = some ref) : s.Shows id ref :=
  ⟨Or.inr (Option.isSome_iff_exists.mpr ⟨ref, h⟩), by rw [refOf, h]; rfl⟩

/-- What is known stays true when nodes are given scalars, or containers that are no mappings are added. -/
theorem Sound.grow {due : List (NodeId × Nat)} (sound : s.Sound due) (grows : Grows s t) (waiting : t.waiting = s.waiting)
    (scalar : ∀ {id v}, t.refOf? id = some (.scalar v) → s.refOf? id = some (.scalar v) ∨ t.graph.Writes id v)
    (container : ∀ {id number}, t.refOf? id = some (.container number) → s.refOf? id = some (.container number))
    (cells : ∀ {number : Nat} {entries}, t.cells[number]? = some (.mapping entries) →
      s.cells[number]? = some (.mapping entries)) : t.Sound due := by
  refine ⟨?_, fun h => ?_, fun h => ?_, fun h h' => sound.injective (container h) (container h'), fun p hp => ?_,
    fun h htag => ?_, fun h => ?_⟩
  · rw [grows.size, sound.size, grows.graph.size]
  · exact (scalar h).elim (fun old => grows.graph.writes (sound.scalar old)) fun new => new
  · have inside := sound.inside (container h)
    exact (Array.getElem?_eq_some_iff.mp (grows.cells (Array.getElem?_eq_getElem inside))).1
  · rw [waiting] at hp
    exact grows.met (sound.pending p hp)
  · rw [waiting]
    exact (sound.filled (container h) (grows.graph.tag_mapping.mp htag)).imp_right grows.holds
  · obtain ⟨id, hid, htag⟩ := sound.origin (cells h)
    exact ⟨id, grows.met hid, grows.graph.tag_mapping.mpr htag⟩

/-! ### Meeting a node -/

/-- A state in which a node has a value. -/
def meet (s : Filling) (id : NodeId) (ref : Ref) : Filling := { s with met := s.met.setIfInBounds id (some ref) }

/-- A state with one more container, which waits for a node. -/
def add (s : Filling) (id : NodeId) (cell : Cell) : Filling :=
  { s with cells := s.cells.push cell, waiting := (id, s.cells.size) :: s.waiting }

theorem refOf?_meet (ref : Ref) (j : NodeId) :
    (s.meet id ref).refOf? j = if id = j ∧ j < s.met.size then some ref else s.refOf? j := by
  rw [refOf?, refOf?, meet, Array.getD_eq_getD_getElem?, Array.getD_eq_getD_getElem?, Array.getElem?_setIfInBounds]
  by_cases same : id = j
  · subst same
    by_cases inside : id < s.met.size
    · simp [inside]
    · simp [inside]
  · simp [same]

theorem size_meet (ref : Ref) : (s.meet id ref).met.size = s.met.size := Array.size_setIfInBounds

theorem met_or_new {ref r : Ref} {j : NodeId} (h : (s.meet id ref).refOf? j = some r) :
    (j = id ∧ r = ref) ∨ s.refOf? j = some r := by
  rw [refOf?_meet] at h
  split at h
  · rename_i same
    exact Or.inl ⟨same.1.symm, (Option.some.inj h).symm⟩
  · exact Or.inr h

/-- A node that is met for the first time takes no value from another one. -/
theorem refOf?_of_met {ref r : Ref} {j : NodeId} (new : s.refOf? id = none) (h : s.refOf? j = some r) :
    (s.meet id ref).refOf? j = some r := by
  have other : ¬ (id = j ∧ j < s.met.size) := by
    rintro ⟨rfl, -⟩
    rw [new] at h
    cases h
  rw [refOf?_meet, if_neg other]
  exact h

theorem shows_meet {ref : Ref} (inside : id < s.met.size) : (s.meet id ref).Shows id ref :=
  shows_of_met (by rw [refOf?_meet, if_pos ⟨rfl, inside⟩])

/-- A node outside of the graph is nothing. -/
theorem node_of_outside {graph : Graph} (outside : graph.size ≤ id) : graph.node id = ⟨.null, .scalar ""⟩ := by
  rw [Graph.node, Array.getD_eq_getD_getElem?, Array.getElem?_eq_none outside]
  rfl

theorem grows_meet (new : s.refOf? id = none) (ref : Ref) : Grows s (s.meet id ref) :=
  ⟨⟨.refl _, size_meet ref, refOf?_of_met new⟩, fun h => h, List.suffix_rfl⟩

theorem grows_add (new : s.refOf? id = none) (cell : Cell) :
    Grows s ((s.add id cell).meet id (.container s.cells.size)) := by
  refine ⟨⟨.refl _, size_meet _, refOf?_of_met new⟩, fun {number c} h => ?_, List.suffix_cons _ _⟩
  show (s.cells.push cell)[number]? = some c
  have inside : number < s.cells.size := (Array.getElem?_eq_some_iff.mp h).1
  rw [Array.getElem?_push, if_neg (Nat.ne_of_lt inside)]
  exact h

section Meeting
variable {due : List (NodeId × Nat)} (sound : s.Sound due) (new : s.refOf? id = none)
include sound new

/-- A scalar has its value, also outside of the graph. -/
theorem shows_scalar {v : Value} (writes : s.graph.Writes id v) : (s.meet id (.scalar v)).Shows id (.scalar v) := by
  by_cases inside : id < s.met.size
  · exact shows_meet inside
  · have outside : s.met.size ≤ id := Nat.le_of_not_lt inside
    obtain ⟨text, htext, -⟩ := writes
    rw [node_of_outside (sound.size ▸ outside)] at htext
    cases htext
    refine ⟨Or.inl (by rwa [size_meet]), ?_⟩
    rw [refOf, refOf?_meet, if_neg fun h => inside h.2, new]
    rfl

theorem sound_meet_scalar {v : Value} (writes : s.graph.Writes id v) : (s.meet id (.scalar v)).Sound due := by
  refine sound.grow (grows_meet new _) rfl (fun h => ?_) (fun h => ?_) fun h => h
  · rcases met_or_new h with ⟨rfl, same⟩ | old
    · cases same
      exact Or.inr writes
    · exact Or.inl old
  · rcases met_or_new h with ⟨-, same⟩ | old
    · cases same
    · exact old

theorem sound_add {cell : Cell} (inside : id < s.graph.size)
    (mapping : ∀ entries, cell = .mapping entries → (s.graph.node id).tag = .mapping) :
    ((s.add id cell).meet id (.container s.cells.size)).Sound due := by
  have grows := grows_add new cell
  have newest : ((s.add id cell).meet id (.container s.cells.size)).refOf? id = some (.container s.cells.size) := by
    rw [refOf?_meet, if_pos ⟨rfl, sound.size ▸ inside⟩]
  have older : ∀ {j number}, ((s.add id cell).meet id (.container s.cells.size)).refOf? j = some (.container number) →
      j = id ∧ number = s.cells.size ∨ s.refOf? j = some (.container number) := by
    intro j number hj
    rcases met_or_new hj with ⟨h, hnumber⟩ | h
    · cases hnumber
      exact Or.inl ⟨h, rfl⟩
    · exact Or.inr h
  refine ⟨grows.size.trans sound.size, ?_, ?_, ?_, ?_, ?_, ?_⟩
  · intro j w hj
    rcases met_or_new hj with ⟨-, h⟩ | h
    · cases h
    · exact sound.scalar h
  · intro j number hj
    show number < (s.cells.push cell).size
    rw [Array.size_push]
    rcases older hj with ⟨-, rfl⟩ | h
    · exact Nat.lt_succ_self _
    · exact Nat.lt_succ_of_lt (sound.inside h)
  · -- The new container is none of those that older nodes have.
    intro j j' number hj hj'
    rcases older hj with ⟨rfl, rfl⟩ | h <;> rcases older hj' with ⟨rfl, h'⟩ | h'
    · rfl
    · exact absurd (sound.inside h') (Nat.lt_irrefl _)
    · exact absurd (sound.inside (h' ▸ h)) (Nat.lt_irrefl _)
    · exact sound.injective h h'
  · intro p hp
    rcases List.mem_cons.mp hp with rfl | hp
    · exact newest
    · exact grows.met (sound.pending p hp)
  · intro j number hj htag
    rcases older hj with ⟨rfl, rfl⟩ | h
    · exact Or.inl List.mem_cons_self
    · exact (sound.filled h htag).imp (List.mem_cons_of_mem _) grows.holds
  · intro number entries hcell
    have pushed : (s.cells.push cell)[number]? = some (.mapping entries) := hcell
    rw [Array.getElem?_push] at pushed
    split at pushed
    · rename_i last
      subst last
      exact ⟨id, newest, mapping entries (Option.some.inj pushed)⟩
    · obtain ⟨j, hj, htag⟩ := sound.origin pushed
      exact ⟨j, grows.met hj, htag⟩

end Meeting

/-! ### Other changes of the state -/

section Changes
variable {due : List (NodeId × Nat)} (sound : s.Sound due)
include sound

theorem sound_merged (merged : Fill.Merged s t) : t.Sound due ∧ Grows s t := by
  have met : t.met = s.met := by rw [merged.rest]
  have cells : t.cells = s.cells := by rw [merged.rest]
  have waiting : t.waiting = s.waiting := by rw [merged.rest]
  have refs : ∀ id, t.refOf? id = s.refOf? id := fun id => by rw [refOf?, refOf?, met]
  have grows : Grows s t :=
    ⟨⟨merged.graph, congrArg Array.size met, fun h => (refs _).trans h⟩, fun h => cells ▸ h, waiting ▸ List.suffix_rfl⟩
  exact ⟨sound.grow grows waiting (fun h => Or.inl ((refs _).symm.trans h)) (fun h => (refs _).symm.trans h)
    fun h => cells ▸ h, grows⟩

/-- A container that is no mapping and is filled already changes nothing that is known. -/
theorem sound_push (cell : Cell) (other : ∀ entries, cell ≠ .mapping entries) :
    Sound { s with cells := s.cells.push cell } due ∧ Grows s { s with cells := s.cells.push cell } := by
  have grows : Grows s { s with cells := s.cells.push cell } := by
    refine ⟨⟨.refl _, rfl, fun h => h⟩, fun {number c} h => ?_, List.suffix_rfl⟩
    have inside : number < s.cells.size := (Array.getElem?_eq_some_iff.mp h).1
    rw [Array.getElem?_push, if_neg (Nat.ne_of_lt inside)]
    exact h
  refine ⟨sound.grow grows rfl Or.inl (fun h => h) fun {number entries} h => ?_, grows⟩
  rw [Array.getElem?_push] at h
  split at h
  · exact absurd (Option.some.inj h) (other entries)
  · exact h

end Changes

/-- A container that was due is filled. -/
theorem sound_fill {number : Nat} {cell : Cell} {rest : List (NodeId × Nat)} (sound : s.Sound ((id, number) :: rest))
    (mapping : (s.graph.node id).tag = .mapping →
      s.Resolved id ∧ cell = .mapping (Entries.ofList Value.sameKey (s.pairsOf id)))
    (isMapping : ∀ entries, cell = .mapping entries → (s.graph.node id).tag = .mapping) :
    Sound { s with cells := s.cells.setIfInBounds number cell } rest ∧
      Keeps s { s with cells := s.cells.setIfInBounds number cell } := by
  have own : s.refOf? id = some (.container number) := sound.pending _ (List.mem_append_right _ List.mem_cons_self)
  have keeps : Keeps s { s with cells := s.cells.setIfInBounds number cell } := ⟨.refl _, rfl, fun h => h⟩
  have newest : (s.cells.setIfInBounds number cell)[number]? = some cell := by
    rw [Array.getElem?_setIfInBounds, if_pos rfl, if_pos (sound.inside own)]
  have others : ∀ {c : Nat}, c ≠ number → (s.cells.setIfInBounds number cell)[c]? = s.cells[c]? := fun hne => by
    rw [Array.getElem?_setIfInBounds, if_neg hne.symm]
  refine ⟨⟨sound.size, sound.scalar, fun h => ?_, sound.injective, fun p hp => ?_, fun {j c} hj htag => ?_, ?_⟩, keeps⟩
  · rw [Array.size_setIfInBounds]
    exact sound.inside h
  · refine sound.pending p ?_
    rcases List.mem_append.mp hp with hp | hp
    · exact List.mem_append_left _ hp
    · exact List.mem_append_right _ (List.mem_cons_of_mem _ hp)
  · by_cases same : c = number
    · -- No other node has this container, so the node is the one that it is filled for.
      subst same
      obtain rfl := sound.injective hj own
      obtain ⟨resolved, rfl⟩ := mapping htag
      exact Or.inr ⟨keeps.resolved resolved, by rw [keeps.pairsOf_eq resolved]; exact newest⟩
    · rcases sound.filled hj htag with waits | held
      · rcases List.mem_append.mp waits with hp | hp
        · exact Or.inl (List.mem_append_left _ hp)
        · rcases List.mem_cons.mp hp with heq | hp
          · cases heq
            exact absurd rfl same
          · exact Or.inl (List.mem_append_right _ hp)
      · exact Or.inr (keeps.holds (others same) held)
  · intro c entries hcell
    by_cases same : c = number
    · subst same
      rw [newest] at hcell
      exact ⟨id, own, isMapping entries (Option.some.inj hcell)⟩
    · rw [others same] at hcell
      exact sound.origin hcell

theorem sound_initial (graph : Graph) :
    Sound { graph, cells := #[], met := Array.replicate graph.size none, waiting := [] } [] := by
  have none : ∀ id, refOf? { graph, cells := #[], met := Array.replicate graph.size none, waiting := [] } id = none :=
    fun id => by
      rw [refOf?, Array.getD_eq_getD_getElem?, Array.getElem?_replicate]
      split <;> rfl
  refine ⟨Array.size_replicate, fun h => ?_, fun h => ?_, fun h _ => ?_, fun p hp => ?_, fun h _ => ?_, fun h => ?_⟩
  · rw [none] at h
    cases h
  · rw [none] at h
    cases h
  · rw [none] at h
    cases h
  · cases hp
  · rw [none] at h
    cases h
  · cases h

end Filling

end LocaleLint.Yaml
