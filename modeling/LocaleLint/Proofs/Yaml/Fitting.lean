import LocaleLint.Proofs.Value.Endless
import LocaleLint.Proofs.Yaml.Built
import LocaleLint.Yaml.Load

/-! # What stands in a document that is loaded

The marker of something endless is written nowhere in a document, and no container is referred to that there is not.
Every step that builds values keeps this: the values that it gives fit the containers that there are by then, and
containers are only added. -/

namespace LocaleLint

/-! ### Members of a set -/

namespace Value

theorem mem_of_mem_filed {pairs : List (Nat × Value)} {table : Array (Option Value)} {v : Value}
    (h : some v ∈ pairs.foldl (fun table (code, w) => file table code w) table) :
    some v ∈ table ∨ v ∈ pairs.map (·.2) := by
  induction pairs generalizing table with
  | nil => exact Or.inl h
  | cons pair rest ih =>
    obtain ⟨code, w⟩ := pair
    rcases ih h with filed | later
    · rcases Array.mem_or_eq_of_mem_setIfInBounds filed with old | new
      · exact Or.inl old
      · exact Or.inr (List.mem_cons.mpr (Or.inl (Option.some.inj new)))
    · exact Or.inr (List.mem_cons_of_mem _ later)

/-- A set is shown with no other members than its own. -/
theorem mem_of_mem_inTableOrder {members : List Value} {v : Value} (h : v ∈ inTableOrder members) : v ∈ members := by
  rw [inTableOrder] at h
  split at h
  · exact h
  · obtain ⟨place, member, rfl⟩ := List.mem_filterMap.mp h
    rcases mem_of_mem_filed (Array.mem_toList_iff.mp member) with free | filed
    · cases Array.eq_of_mem_replicate free
    · obtain ⟨⟨code, w⟩, pair, rfl⟩ := List.mem_map.mp filed
      exact (List.of_mem_zip pair).2

end Value

namespace Yaml

/-! ### What fits -/

/-- Whether a value of a document is a scalar with an end, or one of a number of containers. -/
def Ref.Fits (size : Nat) : Ref → Prop
  | .scalar v => v.Ends
  | .container id => id < size

/-- Whether all that a container holds fits a number of containers. -/
def Cell.Fits (size : Nat) : Cell → Prop
  | .list items | .tuple items => ∀ r ∈ items, r.Fits size
  | .set items => ∀ v ∈ items, v.Ends
  | .mapping entries => ∀ e ∈ entries, e.1.Ends ∧ e.2.Fits size

/-- Whether everything in a document fits its containers. -/
structure Document.Fits (d : Document) : Prop where
  cells : ∀ cell ∈ d.cells, cell.Fits d.cells.size
  root : d.root.Fits d.cells.size

section Mono
variable {size size' : Nat} (more : size ≤ size')
include more

theorem Ref.Fits.mono {ref : Ref} (fits : ref.Fits size) : ref.Fits size' := by
  cases ref with
  | scalar v => exact fits
  | container id => exact Nat.lt_of_lt_of_le fits more

theorem Cell.Fits.mono {cell : Cell} (fits : cell.Fits size) : cell.Fits size' := by
  cases cell with
  | list items | tuple items => exact fun r hr => (fits r hr).mono more
  | set items => exact fits
  | mapping entries => exact fun e he => ⟨(fits e he).1, (fits e he).2.mono more⟩

end Mono

/-! ### Scalars -/

theorem ends_of_timestampValue {s : List Char} {v : Value} (h : timestampValue s = .ok v) : v.Ends := by
  rw [timestampValue] at h
  split at h
  · cases h
  · simp only at h
    split at h
    all_goals
      split at h
      all_goals cases h
      all_goals exact Value.ends_of_atom rfl (fun h => by cases h)

theorem ends_of_scalarValue {tag : Tag} {self : Nat} {s : List Char} {v : Value} (h : scalarValue tag self s = .ok v) :
    v.Ends := by
  cases tag with
  | timestamp => exact ends_of_timestampValue h
  | bool =>
    rw [scalarValue] at h
    split at h
    all_goals cases h
    all_goals exact Value.ends_of_atom rfl (fun h => by cases h)
  | int =>
    obtain ⟨n, rfl⟩ := exists_of_map_ok h
    exact Value.ends_of_atom rfl (fun h => by cases h)
  | float =>
    obtain ⟨x, rfl⟩ := exists_of_map_ok h
    cases x <;> exact Value.ends_of_atom rfl (fun h => by cases h)
  | binary =>
    obtain ⟨bytes, rfl⟩ := exists_of_map_ok h
    exact Value.ends_of_atom rfl (fun h => by cases h)
  | null | text =>
    cases h
    exact Value.ends_of_atom rfl (fun h => by cases h)
  | _ => cases h

/-! ### Steps -/

namespace Filling

/-- Whether the values that are known fit the containers that there are. -/
structure Fits (s : Filling) : Prop where
  cells : ∀ cell ∈ s.cells, cell.Fits s.cells.size
  met : ∀ {id ref}, s.refOf? id = some ref → ref.Fits s.cells.size

variable {s : Filling} {id number : Nat} {ref : Ref} {cell : Cell}

theorem Fits.meet (fits : s.Fits) (h : ref.Fits s.cells.size) : (s.meet id ref).Fits := by
  refine ⟨fits.cells, fun {j r} hr => ?_⟩
  rcases met_or_new hr with ⟨-, rfl⟩ | old
  · exact h
  · exact fits.met old

theorem Fits.push (fits : s.Fits) (h : cell.Fits (s.cells.size + 1)) (waiting : List (NodeId × Nat)) :
    Fits { s with cells := s.cells.push cell, waiting := waiting } := by
  have size : (s.cells.push cell).size = s.cells.size + 1 := Array.size_push cell
  refine ⟨fun c hc => ?_, fun {j r} hr => ?_⟩
  · show c.Fits (s.cells.push cell).size
    rw [size]
    rcases Array.mem_push.mp hc with old | rfl
    · exact (fits.cells c old).mono (Nat.le_succ _)
    · exact h
  · show r.Fits (s.cells.push cell).size
    rw [size]
    exact (fits.met hr).mono (Nat.le_succ _)

theorem Fits.fill (fits : s.Fits) (h : cell.Fits s.cells.size) :
    Fits { s with cells := s.cells.setIfInBounds number cell } := by
  have size : (s.cells.setIfInBounds number cell).size = s.cells.size := Array.size_setIfInBounds
  refine ⟨fun c hc => ?_, fun {j r} hr => ?_⟩
  · show c.Fits (s.cells.setIfInBounds number cell).size
    rw [size]
    rcases Array.mem_or_eq_of_mem_setIfInBounds hc with old | rfl
    · exact fits.cells c old
    · exact h
  · show r.Fits (s.cells.setIfInBounds number cell).size
    rw [size]
    exact fits.met hr

theorem Fits.initial (graph : Graph) :
    Fits { graph, cells := #[], met := Array.replicate graph.size none, waiting := [] } := by
  refine ⟨fun c hc => absurd hc (Array.not_mem_empty c), fun {id ref} h => ?_⟩
  rw [refOf?, Array.getD_eq_getD_getElem?, Array.getElem?_replicate] at h
  split at h <;> cases h

end Filling

namespace Fill
open Filling

/-- Whether a step keeps what fits and gives what `Q` asks for of the number of containers, once there are enough. -/
structure Fitting {α : Type} (size : Nat) (step : Fill α) (Q : Nat → α → Prop) : Prop where
  run : ∀ {s a t}, s.Fits → size ≤ s.cells.size → step s = .ok (a, t) →
    t.Fits ∧ s.cells.size ≤ t.cells.size ∧ Q t.cells.size a

section Rules
variable {α β : Type} {size : Nat} {Q : Nat → α → Prop} {R : Nat → β → Prop}

theorem Fitting.pure {a : α} (h : ∀ size', size ≤ size' → Q size' a) : Fitting size (pure a) Q := by
  refine ⟨fun fits enough hstep => ?_⟩
  obtain ⟨rfl, rfl⟩ := pure_ok hstep
  exact ⟨fits, Nat.le_refl _, h _ enough⟩

theorem Fitting.malformed : Fitting size (malformed : Fill α) Q := ⟨fun _ _ hstep => by cases hstep⟩

theorem Fitting.bind {step : Fill α} {next : α → Fill β} (first : Fitting size step Q)
    (rest : ∀ a size', size ≤ size' → Q size' a → Fitting size' (next a) R) : Fitting size (step >>= next) R := by
  refine ⟨fun fits enough hstep => ?_⟩
  obtain ⟨a, u, hfirst, hrest⟩ := bind_ok hstep
  obtain ⟨fits', more, ha⟩ := first.run fits enough hfirst
  obtain ⟨fits'', more', hb⟩ := (rest a _ (Nat.le_trans enough more) ha).run fits' (Nat.le_refl _) hrest
  exact ⟨fits'', Nat.le_trans more more', hb⟩

theorem Fitting.get {next : Filling → Fill β} (h : ∀ s, Fitting size (next s) R) : Fitting size (get >>= next) R :=
  ⟨fun {s} _ _ fits enough hstep => (h s).run fits enough hstep⟩

theorem Fitting.node {id : NodeId} {next : Node → Fill β} (h : ∀ node, Fitting size (next node) R) :
    Fitting size (nodeOf id >>= next) R :=
  ⟨fun {s} _ _ fits enough hstep => (h (s.graph.node id)).run fits enough hstep⟩

theorem Fitting.mapM {f : β → Fill α} {items : List β} (mono : ∀ {a n n'}, n ≤ n' → Q n a → Q n' a)
    (each : ∀ item n, Fitting n (f item) Q) : Fitting size (items.mapM f) fun n as => ∀ a ∈ as, Q n a := by
  induction items generalizing size with
  | nil =>
    rw [List.mapM_nil]
    exact .pure fun _ _ => List.forall_mem_nil _
  | cons item rest ih =>
    rw [List.mapM_cons]
    refine (each item _).bind fun a _ _ ha => ih.bind fun as _ more has => .pure fun _ more' => ?_
    exact List.forall_mem_cons.mpr ⟨mono (Nat.le_trans more more') ha, fun b hb => mono more' (has b hb)⟩

theorem Fitting.foldlM {f : α → β → Fill α} {items : List β} {a : α} (mono : ∀ {a n n'}, n ≤ n' → Q n a → Q n' a)
    (each : ∀ a item n, Q n a → Fitting n (f a item) Q) (first : Q size a) : Fitting size (items.foldlM f a) Q := by
  induction items generalizing size a with
  | nil => exact .pure fun _ more => mono more first
  | cons item rest ih =>
    rw [List.foldlM_cons]
    exact (each a item _ first).bind fun _ _ _ next => ih next

end Rules

/-! ### Values of nodes -/

section Nodes
variable {id : NodeId} {size : Nat}

theorem valueOf_fits : Fitting size (valueOf id) fun n ref => ref.Fits n := by
  refine ⟨fun {s ref t} fits _ h => ?_⟩
  rcases valueOf_cases h with ⟨met, rfl⟩ | ⟨-, u, hnew, rfl⟩
  · exact ⟨fits, Nat.le_refl _, fits.met met⟩
  · rcases newValue_cases hnew with ⟨v, rfl, rfl, text, writes, -⟩ | ⟨cell, empty, rfl, -, -, rfl⟩
    · exact ⟨fits.meet (ends_of_scalarValue writes), Nat.le_refl _, ends_of_scalarValue writes⟩
    · have size : (s.cells.push cell).size = s.cells.size + 1 := Array.size_push cell
      have nothing : cell.Fits (s.cells.size + 1) := by
        rcases empty with rfl | rfl | rfl <;> exact List.forall_mem_nil _
      have newest : (Ref.container s.cells.size).Fits (s.cells.push cell).size := by
        rw [size]
        exact Nat.lt_succ_self _
      exact ⟨(fits.push nothing _).meet newest, size ▸ Nat.le_succ _, newest⟩

theorem addFilled_fits {cell : Cell} (h : cell.Fits size) : Fitting size (addFilled cell) fun n ref => ref.Fits n := by
  refine ⟨fun {s ref t} fits enough hstep => ?_⟩
  cases hstep
  have more : s.cells.size < (s.cells.push cell).size := by
    rw [Array.size_push]
    exact Nat.lt_succ_self _
  exact ⟨fits.push (h.mono (Nat.le_succ_of_le enough)) _, Nat.le_of_lt more, more⟩

theorem pair_fits : Fitting size (pair id) fun n ref => ref.Fits n := by
  refine .get fun s => ?_
  split
  · refine valueOf_fits.bind fun k _ _ hk => valueOf_fits.bind fun v _ more hv => addFilled_fits ?_
    exact List.forall_mem_cons.mpr ⟨hk.mono more, List.forall_mem_singleton.mpr hv⟩
  · exact .malformed

/-- Whether all entries fit a number of containers. -/
def EntriesFit (n : Nat) (entries : Entries Value Ref) : Prop := ∀ e ∈ entries, e.1.Ends ∧ e.2.Fits n

theorem EntriesFit.mono {n n' : Nat} {entries : Entries Value Ref} (more : n ≤ n') (fits : EntriesFit n entries) :
    EntriesFit n' entries := fun e he => ⟨(fits e he).1, (fits e he).2.mono more⟩

theorem EntriesFit.put {entries : Entries Value Ref} {key : Value} {ref : Ref} (fits : EntriesFit size entries)
    (hkey : key.Ends) (href : ref.Fits size) : EntriesFit size (entries.put Value.sameKey key ref) := by
  induction entries with
  | nil => exact List.forall_mem_singleton.mpr ⟨hkey, href⟩
  | cons entry rest ih =>
    obtain ⟨⟨hk, hv⟩, others⟩ := List.forall_mem_cons.mp fits
    rw [Entries.put]
    split
    · exact List.forall_mem_cons.mpr ⟨⟨hk, href⟩, others⟩
    · exact List.forall_mem_cons.mpr ⟨⟨hk, hv⟩, ih others⟩

theorem putEntry_fits {sofar : Entries Value Ref} {entry : NodeId × NodeId} (fits : EntriesFit size sofar) :
    Fitting size (putEntry sofar entry) EntriesFit := by
  refine valueOf_fits.bind fun key _ more hkey => ?_
  cases key with
  | container number => exact .malformed
  | scalar k =>
    refine valueOf_fits.bind fun ref _ more' href => .pure fun _ more'' => ?_
    exact ((fits.mono (Nat.le_trans more more')).put hkey href).mono more''

theorem mappingEntries_fits {entries : List (NodeId × NodeId)} : Fitting size (mappingEntries entries) EntriesFit := by
  rw [mappingEntries_eq]
  exact .foldlM EntriesFit.mono (fun _ _ _ fits => putEntry_fits fits) (List.forall_mem_nil _)

/-- Merging changes nothing but the graph. -/
theorem flattened_fits {n : Nat} : Fitting size (flattened id n) fun _ _ => True := by
  refine ⟨fun {s entries t} fits _ h => ?_⟩
  obtain ⟨merged, -⟩ := (flattening n).flattened h
  rw [merged.rest]
  exact ⟨⟨fits.cells, fits.met⟩, Nat.le_refl _, trivial⟩

/-! ### Filling containers -/

/-- A container of members that are found one after another fits if they do. -/
theorem members_fits {α : Type} {f : α → Fill Ref} {items : List α} {around : List Ref → Cell}
    (each : ∀ item n, Fitting n (f item) fun n ref => ref.Fits n)
    (h : ∀ refs n, (∀ r ∈ refs, Ref.Fits n r) → (around refs).Fits n) :
    Fitting size (items.mapM f >>= fun refs => Pure.pure (around refs)) fun n cell => cell.Fits n := by
  have members : Fitting size (items.mapM f) fun n refs => ∀ r ∈ refs, r.Fits n :=
    .mapM (fun more fits => fits.mono more) each
  refine members.bind fun refs _ _ fits => .pure fun _ more => ?_
  exact h refs _ fun r hr => (fits r hr).mono more

theorem cellOf_fits : Fitting size (cellOf id) fun n cell => cell.Fits n := by
  refine .node fun node => ?_
  split
  · exact members_fits (fun _ _ => valueOf_fits) fun _ _ fits => fits
  · exact members_fits (fun _ _ => pair_fits) fun _ _ fits => fits
  · exact members_fits (fun _ _ => pair_fits) fun _ _ fits => fits
  · exact .get fun s => flattened_fits.bind fun _ _ _ _ => mappingEntries_fits.bind fun _ _ _ fits =>
      .pure fun _ more => fits.mono more
  · refine .get fun s => flattened_fits.bind fun _ _ _ _ => mappingEntries_fits.bind fun entries _ _ fits =>
      .pure fun _ _ v hv => ?_
    obtain ⟨e, he, rfl⟩ := List.mem_map.mp (Value.mem_of_mem_inTableOrder hv)
    exact (fits e he).1
  · exact .malformed

theorem fillBatch_fits {batch : List (NodeId × Nat)} : Fitting size (forIn batch PUnit.unit fun x _ => do
      let cell ← cellOf x.1
      modify fun s => { s with cells := s.cells.setIfInBounds x.2 cell }
      pure (ForInStep.yield PUnit.unit) : Fill PUnit) fun _ _ => True := by
  induction batch generalizing size with
  | nil => exact .pure fun _ _ => trivial
  | cons first rest ih =>
    rw [List.forIn_cons]
    refine Fitting.bind (Q := fun _ step => step = .yield PUnit.unit) ?_ fun step _ _ hstep => by
      rw [hstep]
      exact ih
    refine cellOf_fits.bind fun cell n _ hcell => ⟨fun {s step t} fits enough hset => ?_⟩
    rw [modify_bind] at hset
    obtain ⟨rfl, rfl⟩ := pure_ok hset
    exact ⟨fits.fill (hcell.mono enough), Nat.le_of_eq Array.size_setIfInBounds.symm, rfl⟩

theorem fillAll_fits {n : Nat} : Fitting size (fillAll n) fun _ _ => True := by
  induction n generalizing size with
  | zero => exact .malformed
  | succ n ih =>
    refine ⟨fun {s a t} fits enough h => ?_⟩
    rw [fillAll, get_bind] at h
    cases hbatch : s.waiting.reverse with
    | nil =>
      rw [hbatch] at h
      obtain ⟨-, rfl⟩ := pure_ok h
      exact ⟨fits, Nat.le_refl _, trivial⟩
    | cons first rest =>
      rw [hbatch] at h
      simp only [set_bind] at h
      have emptied : Filling.Fits { s with waiting := [] } := ⟨fits.cells, fits.met⟩
      have kept := (fillBatch_fits.bind fun _ _ _ _ => ih).run emptied enough h
      exact kept

end Nodes

end Fill

/-! ### The document of a text -/

namespace Document

theorem fits_of_ofGraph {graph : Graph} {root : NodeId} {d : Document} (h : ofGraph graph root = .ok d) : d.Fits := by
  rw [ofGraph_eq] at h
  cases hbuilt : Filling.ofGraph graph root with
  | error e =>
    rw [hbuilt] at h
    cases h
  | ok p =>
    rw [hbuilt] at h
    obtain rfl := Except.ok.inj h
    have steps : Fill.Fitting 0 (do
        let ref ← Fill.valueOf root
        Fill.fillAll (graph.size + 1)
        return ref) fun n ref => ref.Fits n :=
      Fill.valueOf_fits.bind fun ref _ _ href => Fill.fillAll_fits.bind fun _ _ more _ =>
        .pure fun _ more' => href.mono (Nat.le_trans more more')
    obtain ⟨fits, -, href⟩ := steps.run (Filling.Fits.initial graph) (Nat.zero_le _) hbuilt
    exact ⟨fits.cells, href⟩

theorem fits_of_load {content : List Char} {d : Document} (h : load content = .ok d) : d.Fits := by
  rw [load] at h
  split at h
  · rw [loadCut] at h
    split at h
    · cases h
    · obtain rfl := Except.ok.inj h
      refine ⟨fun cell hcell => absurd hcell (Array.not_mem_empty cell), ?_⟩
      exact Value.ends_of_atom rfl (fun h => by cases h)
    · exact fits_of_ofGraph h
  · cases h

end Document

end Yaml

end LocaleLint
