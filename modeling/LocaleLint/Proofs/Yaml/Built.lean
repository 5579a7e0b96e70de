import LocaleLint.Proofs.Yaml.Filling

/-! # Which containers belong to which nodes

A mapping is filled from the entries that its node has after merging, and holds what they hold once they have come
in one after another. When a graph has been built, this holds of all its mappings. -/

namespace LocaleLint.Yaml

namespace Fill
open Filling
variable {s t : Filling} {id : NodeId} {ref : Ref} {due : List (NodeId × Nat)}

theorem scalarText_of_scalar {graph : Graph} {n : Nat} {text own : String} (h : scalarText graph id n = .ok text)
    (hown : (graph.node id).content = .scalar own) : text = own := by
  cases n with
  | zero => cases h
  | succ n =>
    rw [scalarText, hown] at h
    exact (Except.ok.inj h).symm

theorem addContainer_ok {cell : Cell} (h : addContainer id cell s = .ok (ref, t)) :
    ref = .container s.cells.size ∧
      t = { s with cells := s.cells.push cell, waiting := (id, s.cells.size) :: s.waiting } := by
  cases h
  exact ⟨rfl, rfl⟩

theorem scalar_ok {tag : Tag} {text : String} (htag : (s.graph.node id).tag = tag)
    (htext : scalarText s.graph id (s.graph.size + 1) = .ok text)
    (h : (match scalarValue tag id text.toList with
      | .ok v => pure (.scalar v)
      | .error e => throw e : Fill Ref) s = .ok (ref, t)) :
    ∃ v, ref = .scalar v ∧ t = s ∧ s.graph.Writes id v := by
  cases hvalue : scalarValue tag id text.toList with
  | error e =>
    rw [hvalue] at h
    cases h
  | ok v =>
    rw [hvalue] at h
    obtain ⟨rfl, rfl⟩ := pure_ok h
    exact ⟨v, rfl, rfl, text, htag ▸ hvalue, fun own hown => scalarText_of_scalar htext hown⟩

/-- A new value is that of a scalar, or an empty container that is to be filled. -/
theorem newValue_cases (h : newValue id s = .ok (ref, t)) :
    (∃ v, ref = .scalar v ∧ t = s ∧ s.graph.Writes id v) ∨
      ∃ cell, (cell = .list [] ∨ cell = .set [] ∨ cell = .mapping []) ∧ ref = .container s.cells.size ∧
        (s.graph.node id).tag ≠ .null ∧
        (∀ entries, cell = .mapping entries → (s.graph.node id).tag = .mapping) ∧
        t = { s with cells := s.cells.push cell, waiting := (id, s.cells.size) :: s.waiting } := by
  rw [newValue, get_bind] at h
  cases htag : (s.graph.node id).tag with
  | sequence | orderedMapping | pairs =>
    rw [htag] at h
    obtain ⟨rfl, rfl⟩ := addContainer_ok h
    exact Or.inr ⟨.list [], Or.inl rfl, rfl, nofun, nofun, rfl⟩
  | set =>
    rw [htag] at h
    obtain ⟨rfl, rfl⟩ := addContainer_ok h
    exact Or.inr ⟨.set [], Or.inr (Or.inl rfl), rfl, nofun, nofun, rfl⟩
  | mapping =>
    rw [htag] at h
    obtain ⟨rfl, rfl⟩ := addContainer_ok h
    exact Or.inr ⟨.mapping [], Or.inr (Or.inr rfl), rfl, nofun, fun _ _ => rfl, rfl⟩
  | merge | value | unknown =>
    rw [htag] at h
    cases h
  | null | bool | int | float | binary | text =>
    rw [htag] at h
    cases htext : scalarText s.graph id (s.graph.size + 1) with
    | error e =>
      simp only [htext] at h
      cases h
    | ok text =>
      simp only [htext] at h
      exact Or.inl (scalar_ok htag htext h)
  | timestamp =>
    rw [htag] at h
    cases htext : scalarText s.graph id (s.graph.size + 1) with
    | error e =>
      simp only [htext] at h
      cases h
    | ok text =>
      cases hcontent : (s.graph.node id).content with
      | mapping entries =>
        simp only [htext, hcontent] at h
        cases h
      | scalar own | sequence items =>
        simp only [htext, hcontent] at h
        exact Or.inl (scalar_ok htag htext h)

/-- A node is met for the first time, or again. -/
theorem valueOf_cases (h : valueOf id s = .ok (ref, t)) :
    (s.refOf? id = some ref ∧ t = s) ∨ (s.refOf? id = none ∧ ∃ u, newValue id s = .ok (ref, u) ∧
      t = { u with met := u.met.setIfInBounds id (some ref) }) := by
  rw [valueOf, get_bind] at h
  cases hmet : s.met.getD id none with
  | some found =>
    rw [hmet] at h
    obtain ⟨rfl, rfl⟩ := pure_ok h
    exact Or.inl ⟨hmet, rfl⟩
  | none =>
    rw [hmet] at h
    obtain ⟨found, u, hnew, h'⟩ := bind_ok h
    rw [modify_bind] at h'
    obtain ⟨rfl, rfl⟩ := pure_ok h'
    exact Or.inr ⟨hmet, u, hnew, rfl⟩

/-- A node has a value once it is met, and what is known stays true. -/
theorem valueOf_ok (sound : s.Sound due) (h : valueOf id s = .ok (ref, t)) :
    t.Sound due ∧ Grows s t ∧ t.Shows id ref := by
  rcases valueOf_cases h with ⟨met, rfl⟩ | ⟨new, u, hnew, rfl⟩
  · exact ⟨sound, .refl t, shows_of_met met⟩
  · rcases newValue_cases hnew with ⟨v, rfl, rfl, writes⟩ | ⟨cell, -, rfl, some, mapping, rfl⟩
    · exact ⟨sound_meet_scalar sound new writes, grows_meet new _, shows_scalar sound new writes⟩
    · have inside : id < s.graph.size := by
        refine Nat.lt_of_not_le fun outside => some ?_
        rw [node_of_outside outside]
      exact ⟨sound_add sound new inside mapping, grows_add new cell, shows_meet (sound.size ▸ inside)⟩

/-! ### Filling a container -/

/-- Puts in the entry of two nodes. -/
def putEntry (sofar : Entries Value Ref) (entry : NodeId × NodeId) : Fill (Entries Value Ref) := do
  match ← valueOf entry.1 with
  | .container _ => malformed
  | .scalar k => return sofar.put Value.sameKey k (← valueOf entry.2)

theorem mappingEntries_eq (entries : List (NodeId × NodeId)) : mappingEntries entries = entries.foldlM putEntry [] := rfl

theorem putEntry_ok {sofar next : Entries Value Ref} {entry : NodeId × NodeId} (sound : s.Sound due)
    (h : putEntry sofar entry s = .ok (next, t)) :
    t.Sound due ∧ Grows s t ∧ ((t.Met entry.1 ∧ t.Met entry.2) ∧ ∃ v, t.refOf entry.1 = .scalar v) ∧
      next = sofar.put Value.sameKey (t.keyOf entry.1) (t.refOf entry.2) := by
  rw [putEntry] at h
  obtain ⟨k, u, hkey, hrest⟩ := bind_ok h
  obtain ⟨sound', grows, key⟩ := valueOf_ok sound hkey
  cases k with
  | container number => cases hrest
  | scalar v =>
    obtain ⟨ref, u', hvalue, hput⟩ := bind_ok hrest
    obtain ⟨rfl, rfl⟩ := pure_ok hput
    obtain ⟨sound'', grows', value⟩ := valueOf_ok sound' hvalue
    have key := key.keeps grows'.toKeeps
    refine ⟨sound'', grows.trans grows', ⟨⟨key.1, value.1⟩, v, key.2⟩, ?_⟩
    rw [keyOf, key.2, value.2]

/-- The entries of a mapping are put in one after another, and all their nodes are met. -/
theorem foldlM_putEntry {entries : List (NodeId × NodeId)} {sofar found : Entries Value Ref} (sound : s.Sound due)
    (h : entries.foldlM putEntry sofar s = .ok (found, t)) :
    t.Sound due ∧ Grows s t ∧
      (∀ entry ∈ entries, (t.Met entry.1 ∧ t.Met entry.2) ∧ ∃ v, t.refOf entry.1 = .scalar v) ∧
      found = (entries.map fun entry => (t.keyOf entry.1, t.refOf entry.2)).foldl
        (fun sofar pair => sofar.put Value.sameKey pair.1 pair.2) sofar := by
  induction entries generalizing s sofar with
  | nil =>
    obtain ⟨rfl, rfl⟩ := pure_ok h
    exact ⟨sound, .refl t, List.forall_mem_nil _, rfl⟩
  | cons entry rest ih =>
    rw [List.foldlM_cons] at h
    obtain ⟨next, u, hentry, hrest⟩ := bind_ok h
    obtain ⟨sound', grows, ⟨⟨key, value⟩, scalar⟩, rfl⟩ := putEntry_ok sound hentry
    obtain ⟨sound'', grows', others, rfl⟩ := ih sound' hrest
    refine ⟨sound'', grows.trans grows', List.forall_mem_cons.mpr ⟨⟨⟨grows'.isMet key, grows'.isMet value⟩, ?_⟩, others⟩, ?_⟩
    · rwa [grows'.refOf_eq key]
    · rw [List.map_cons, List.foldl_cons, grows'.keyOf_eq key, grows'.refOf_eq value]

theorem pair_ok (sound : s.Sound due) (h : pair id s = .ok (ref, t)) : t.Sound due ∧ Grows s t := by
  rw [pair, get_bind] at h
  match hentries : entriesOf? s.graph id with
  | some [(key, value)] =>
    rw [hentries] at h
    obtain ⟨k, u, hkey, hrest⟩ := bind_ok h
    obtain ⟨v, u', hvalue, hadd⟩ := bind_ok hrest
    obtain ⟨sound', grows, -⟩ := valueOf_ok sound hkey
    obtain ⟨sound'', grows', -⟩ := valueOf_ok sound' hvalue
    cases hadd
    obtain ⟨last, pushed⟩ := sound_push sound'' (.tuple [k, v]) nofun
    exact ⟨last, (grows.trans grows').trans pushed⟩
  | none | some [] | some (_ :: _ :: _) =>
    rw [hentries] at h
    cases h

theorem mapM_keeps {α β : Type} {f : α → Fill β} {items : List α} {r : List β}
    (step : ∀ {a s b t}, s.Sound due → f a s = .ok (b, t) → t.Sound due ∧ Grows s t) (sound : s.Sound due)
    (h : items.mapM f s = .ok (r, t)) : t.Sound due ∧ Grows s t := by
  have run := mapM_ok (I := (Sound · due)) (R := Grows) (Q := fun _ _ _ => True) Grows.refl Grows.trans
    (fun _ _ => trivial) (fun a _ {s b t} hs hstep => ⟨(step hs hstep).1, (step hs hstep).2, trivial⟩) sound h
  exact ⟨run.1, run.2.1⟩

/-- The entries of a mapping after merging, by their values. -/
theorem mappingEntries_ok {n : Nat} {u : Filling} {entries : List (NodeId × NodeId)} {found : Entries Value Ref}
    (sound : s.Sound due) (hflat : flattened id n s = .ok (entries, u)) (h : mappingEntries entries u = .ok (found, t)) :
    t.Sound due ∧ Grows s t ∧ t.Resolved id ∧ found = Entries.ofList Value.sameKey (t.pairsOf id) := by
  obtain ⟨merged, rfl, plain⟩ := (flattening n).flattened hflat
  obtain ⟨sound', grows⟩ := sound_merged sound merged
  rw [mappingEntries_eq] at h
  obtain ⟨sound'', grows', known, rfl⟩ := foldlM_putEntry sound' h
  have entries : t.graph.entries id = u.graph.entries id := grows'.graph.entries_of_plain plain
  refine ⟨sound'', grows.trans grows', ⟨?_, ?_, ?_⟩, ?_⟩
  · rw [entries, grows'.graph.plain_iff]
    exact plain
  · rw [entries]
    exact fun entry hentry => (known entry hentry).1
  · rw [entries]
    exact fun entry hentry => (known entry hentry).2
  · rw [pairsOf, entries]
    rfl

theorem nodeOf_bind {β : Type} (f : Node → Fill β) : (nodeOf id >>= f) s = f (s.graph.node id) s := rfl

/-- What a container is filled with. It is a mapping if and only if its node is one, and then that which the node
    writes. -/
theorem cellOf_ok {cell : Cell} (sound : s.Sound due) (h : cellOf id s = .ok (cell, t)) :
    t.Sound due ∧ Grows s t ∧
      ((s.graph.node id).tag = .mapping →
        t.Resolved id ∧ cell = .mapping (Entries.ofList Value.sameKey (t.pairsOf id))) ∧
      ∀ entries, cell = .mapping entries → (s.graph.node id).tag = .mapping := by
  rw [cellOf, nodeOf_bind] at h
  cases hcontent : (s.graph.node id).content with
  | scalar text =>
    rw [hcontent] at h
    cases htag : (s.graph.node id).tag <;> rw [htag] at h <;> cases h
  | sequence items =>
    rw [hcontent] at h
    cases htag : (s.graph.node id).tag with
    | sequence =>
      rw [htag] at h
      obtain ⟨refs, u, hitems, hput⟩ := bind_ok h
      obtain ⟨rfl, rfl⟩ := pure_ok hput
      obtain ⟨sound', grows⟩ := mapM_keeps (fun hs h => ⟨(valueOf_ok hs h).1, (valueOf_ok hs h).2.1⟩) sound hitems
      exact ⟨sound', grows, nofun, nofun⟩
    | orderedMapping | pairs =>
      rw [htag] at h
      obtain ⟨refs, u, hitems, hput⟩ := bind_ok h
      obtain ⟨rfl, rfl⟩ := pure_ok hput
      obtain ⟨sound', grows⟩ := mapM_keeps pair_ok sound hitems
      exact ⟨sound', grows, nofun, nofun⟩
    | _ =>
      rw [htag] at h
      cases h
  | mapping own =>
    rw [hcontent] at h
    cases htag : (s.graph.node id).tag with
    | mapping =>
      rw [htag] at h
      simp only [get_bind] at h
      obtain ⟨entries, u, hflat, hrest⟩ := bind_ok h
      obtain ⟨found, u', hfound, hput⟩ := bind_ok hrest
      obtain ⟨rfl, rfl⟩ := pure_ok hput
      obtain ⟨sound', grows, resolved, rfl⟩ := mappingEntries_ok sound hflat hfound
      exact ⟨sound', grows, fun _ => ⟨resolved, rfl⟩, fun _ _ => rfl⟩
    | set =>
      rw [htag] at h
      simp only [get_bind] at h
      obtain ⟨entries, u, hflat, hrest⟩ := bind_ok h
      obtain ⟨found, u', hfound, hput⟩ := bind_ok hrest
      obtain ⟨rfl, rfl⟩ := pure_ok hput
      obtain ⟨sound', grows, -, -⟩ := mappingEntries_ok sound hflat hfound
      exact ⟨sound', grows, nofun, nofun⟩
    | _ =>
      rw [htag] at h
      cases h

theorem fillBatch_ok {batch : List (NodeId × Nat)} {p : PUnit} (sound : s.Sound batch)
    (h : (forIn batch PUnit.unit fun x _ => do
      let cell ← cellOf x.1
      modify fun s => { s with cells := s.cells.setIfInBounds x.2 cell }
      pure (ForInStep.yield PUnit.unit) : Fill PUnit) s = .ok (p, t)) : t.Sound [] ∧ Keeps s t := by
  induction batch generalizing s with
  | nil =>
    obtain ⟨-, rfl⟩ := pure_ok h
    exact ⟨sound, .refl t⟩
  | cons first rest ih =>
    obtain ⟨id, number⟩ := first
    rw [List.forIn_cons] at h
    obtain ⟨step, u, hstep, hrest⟩ := bind_ok h
    obtain ⟨cell, u', hcell, hset⟩ := bind_ok hstep
    rw [modify_bind] at hset
    obtain ⟨rfl, rfl⟩ := pure_ok hset
    obtain ⟨sound₁, grows, mapping, isMapping⟩ := cellOf_ok sound hcell
    obtain ⟨sound₂, keeps⟩ := sound_fill sound₁ (fun htag => mapping (grows.graph.tag_mapping.mp htag))
      fun entries h => grows.graph.tag_mapping.mpr (isMapping entries h)
    obtain ⟨sound₃, keeps'⟩ := ih sound₂ hrest
    exact ⟨sound₃, (grows.toKeeps.trans keeps).trans keeps'⟩

theorem fillAll_ok {n : Nat} (sound : s.Sound []) (h : fillAll n s = .ok ((), t)) :
    t.Sound [] ∧ t.waiting = [] ∧ Keeps s t := by
  induction n generalizing s with
  | zero => cases h
  | succ n ih =>
    rw [fillAll, get_bind] at h
    cases hbatch : s.waiting.reverse with
    | nil =>
      rw [hbatch] at h
      obtain ⟨-, rfl⟩ := pure_ok h
      exact ⟨sound, List.reverse_eq_nil_iff.mp hbatch, .refl t⟩
    | cons first rest =>
      rw [hbatch] at h
      simp only [set_bind] at h
      -- What waited is due now, and nothing else waits.
      have moved : ∀ p, p ∈ first :: rest ↔ p ∈ s.waiting ++ [] := fun p => by
        rw [← hbatch, List.mem_reverse, List.append_nil]
      have due : Sound { s with waiting := [] } (first :: rest) :=
        ⟨sound.size, sound.scalar, sound.inside, sound.injective, fun p hp => sound.pending p ((moved p).mp hp),
          fun h htag => (sound.filled h htag).imp (moved _).mpr fun held => ⟨⟨held.plain, held.met, held.keys⟩, held.cell⟩,
          sound.origin⟩
      obtain ⟨p, u, hloop, hrest⟩ := bind_ok h
      obtain ⟨sound', keeps⟩ := fillBatch_ok due hloop
      obtain ⟨sound'', none, keeps'⟩ := ih sound' hrest
      have emptied : Keeps s u := ⟨keeps.graph, keeps.size, keeps.met⟩
      exact ⟨sound'', none, emptied.trans keeps'⟩

end Fill

/-! ### The document of a graph -/

/-- What is known when a graph has been built, with the value of its root. -/
def Filling.ofGraph (graph : Graph) (root : NodeId) : Except LoadError (Ref × Filling) :=
  let build : Fill Ref := do
    let ref ← Fill.valueOf root
    Fill.fillAll (graph.size + 1)
    return ref
  build { graph, cells := #[], met := Array.replicate graph.size none, waiting := [] }

theorem Document.ofGraph_eq (graph : Graph) (root : NodeId) :
    Document.ofGraph graph root = (Filling.ofGraph graph root).map fun p => ⟨p.2.cells, p.1⟩ := by
  rw [Document.ofGraph, Filling.ofGraph]
  split
  · rename_i h
    rw [h]
    rfl
  · rename_i h
    rw [h]
    rfl

/-- What holds when a graph has been built: every mapping is filled, the root has its value, and the own entries
    of every mapping are the last of its entries. -/
structure Filling.Built (graph : Graph) (root : NodeId) (ref : Ref) (s : Filling) : Prop where
  sound : s.Sound []
  full : s.waiting = []
  graph : graph.Flattens s.graph
  root : s.Shows root ref

theorem Filling.built {graph : Graph} {root : NodeId} {ref : Ref} {s : Filling}
    (h : Filling.ofGraph graph root = .ok (ref, s)) : s.Built graph root ref := by
  rw [Filling.ofGraph] at h
  obtain ⟨first, t, hroot, hrest⟩ := Fill.bind_ok h
  obtain ⟨⟨⟩, u, hfill, hput⟩ := Fill.bind_ok hrest
  obtain ⟨rfl, rfl⟩ := Fill.pure_ok hput
  obtain ⟨sound, grows, shows⟩ := Fill.valueOf_ok (sound_initial graph) hroot
  obtain ⟨sound', full, keeps⟩ := Fill.fillAll_ok sound hfill
  exact ⟨sound', full, grows.graph.trans keeps.graph, shows.keeps keeps⟩

end LocaleLint.Yaml
