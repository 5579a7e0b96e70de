import LocaleLint.Yaml.Document

/-! # Unfolding a document

A value of a document is unfolded by following its containers. Those that do not lead back into
themselves are unfolded first, from the inside out. The others can be unfolded only up to the place where
a container is met again while it is open; there stands a marker. What counts as following them depends on
what the value is for: read as text, mappings are followed through their values and lists through their
items, and inside a list any other container is printed instead; as settings, mappings and lists are
followed alike. Following a marker would never end, and printing shows an ellipsis for it. The containers
that may still be opened become fewer, so the unfolding ends. -/

namespace LocaleLint.Yaml.Document

theorem length_erase_lt {id : Nat} {closed : List Nat} (h : id ∈ closed) :
    (closed.erase id).length < closed.length := by
  have := List.length_pos_of_mem h
  rw [List.length_erase_of_mem h]
  omega

def kindOf (cell : Cell) : Container :=
  match cell with
  | .list _ => .list
  | .tuple _ => .tuple
  | .set _ => .set
  | .mapping _ => .mapping

/-! ### Containers that end -/

/-- The containers of a document with the values of those that have been unfolded. -/
structure Cells where
  cells : Array Cell
  known : Array (Option Value)

namespace Cells

/-- The value of a container that has been unfolded. -/
def value? (s : Cells) (id : Nat) : Option Value := s.known.getD id none

def cell (s : Cells) (id : Nat) : Cell := s.cells.getD id (.list [])

def all (s : Cells) : List Nat := List.range s.cells.size

/-- The value of what refers to an unfolded container. -/
def refValue? (s : Cells) : Ref → Option Value
  | .scalar v => some v
  | .container id => s.value? id

/-- The value of a container all of whose members have values. -/
def cellValue? (s : Cells) : Cell → Option Value
  | .list items => (items.mapM s.refValue?).map .list
  | .tuple items => (items.mapM s.refValue?).map .tuple
  | .set items => some (.set items)
  | .mapping entries => (entries.mapM fun e => (s.refValue? e.2).map fun v => (e.1, v)).map .mapping

/-- Unfolds the containers all of whose members have values. -/
def settleOnce (s : Cells) : Cells :=
  { s with known := (s.cells.zip s.known).map fun (cell, v) => v.or (s.cellValue? cell) }

def settledCount (s : Cells) : Nat := s.known.foldl (fun n v => if v.isSome then n + 1 else n) 0

/-- Unfolds containers in rounds until a round unfolds none. -/
def settle : Nat → Cells → Cells
  | 0, s => s
  | n + 1, s => if s.settleOnce.settledCount = s.settledCount then s else settle n s.settleOnce

/-- The containers of a document with the values of all that end. -/
def ofArray (cells : Array Cell) : Cells := settle cells.size ⟨cells, Array.replicate cells.size none⟩

end Cells

/-! ### Containers that lead back into themselves -/

/-- A value as it is printed, where the containers of `closed` are not open. -/
def printing (s : Cells) (closed : List Nat) (ref : Ref) : Value :=
  match ref with
  | .scalar v => v
  | .container id =>
    match s.value? id with
    | some v => v
    | none =>
      if _ : id ∈ closed then
        match s.cell id with
        | .list items => .list (items.map fun r => printing s (closed.erase id) r)
        | .tuple items => .tuple (items.map fun r => printing s (closed.erase id) r)
        | .set items => .set items
        | .mapping entries => .mapping (entries.map fun e => (e.1, printing s (closed.erase id) e.2))
      else .again (kindOf (s.cell id))
termination_by closed.length
decreasing_by all_goals exact length_erase_lt (by assumption)

/-- An item of a list as it is read as text, where the containers of `closed` are not open. -/
def readingItem (s : Cells) (closed : List Nat) (ref : Ref) : Value :=
  match ref with
  | .scalar v => v
  | .container id =>
    match s.value? id, s.cell id with
    | some v, _ => v
    | none, .list items =>
      if _ : id ∈ closed then .list (items.map fun r => readingItem s (closed.erase id) r) else .endless
    | none, _ => printing s s.all ref
termination_by closed.length
decreasing_by exact length_erase_lt (by assumption)

/-- A value as a mapping's value is read as text, where the containers of `closed` are not open. -/
def reading (s : Cells) (closed : List Nat) (ref : Ref) : Value :=
  match ref with
  | .scalar v => v
  | .container id =>
    match s.value? id, s.cell id with
    | some v, _ => v
    | none, .mapping entries =>
      if _ : id ∈ closed then .mapping (entries.map fun e => (e.1, reading s (closed.erase id) e.2)) else .endless
    | none, _ => readingItem s s.all ref
termination_by closed.length
decreasing_by exact length_erase_lt (by assumption)

/-- A value as settings, where the containers of `closed` are not open. -/
def following (s : Cells) (closed : List Nat) (ref : Ref) : Value :=
  match ref with
  | .scalar v => v
  | .container id =>
    match s.value? id, s.cell id with
    | some v, _ => v
    | none, .mapping entries =>
      if _ : id ∈ closed then .mapping (entries.map fun e => (e.1, following s (closed.erase id) e.2)) else .endless
    | none, .list items =>
      if _ : id ∈ closed then .list (items.map fun r => following s (closed.erase id) r) else .endless
    | none, _ => printing s s.all ref
termination_by closed.length
decreasing_by all_goals exact length_erase_lt (by assumption)

/-- The value of a document. What stands under the keys of an outermost mapping is unfolded as it is read as text; that
    mapping itself is only looked at, so it is not open while they are read. -/
def value (d : Document) : Value :=
  let s := Cells.ofArray d.cells
  match d.root with
  | .scalar v => v
  | .container id =>
    match s.cell id with
    | .mapping entries => .mapping (entries.map fun e => (e.1, reading s s.all e.2))
    | _ => reading s s.all (.container id)

/-- The value of a document, unfolded as settings. -/
def settings (d : Document) : Value :=
  let s := Cells.ofArray d.cells
  following s s.all d.root

end LocaleLint.Yaml.Document
