/-! # Entries

A list of entries keeps each key at the place where it first came in and holds the value that came
last. Keys are compared by a test of the caller's, and the key that came first stays. -/

namespace LocaleLint

/-- Keys with values in the order of their first coming. -/
abbrev Entries (κ α : Type) := List (κ × α)

namespace Entries

variable {κ α : Type}

/-- The entries with a value under a key: in the place of the entry of that key, or at the end. -/
def put (same : κ → κ → Bool) (entries : Entries κ α) (key : κ) (value : α) : Entries κ α :=
  match entries with
  | [] => [(key, value)]
  | (k, v) :: rest => if same k key then (k, value) :: rest else (k, v) :: put same rest key value

/-- The entries that pairs give when they come in one after another. -/
def ofList (same : κ → κ → Bool) (pairs : List (κ × α)) : Entries κ α :=
  pairs.foldl (fun entries pair => put same entries pair.1 pair.2) []

def get? [BEq κ] (entries : Entries κ α) (key : κ) : Option α :=
  (entries.find? (·.1 == key)).map (·.2)

def keys (entries : Entries κ α) : List κ := entries.map (·.1)

end Entries

end LocaleLint
