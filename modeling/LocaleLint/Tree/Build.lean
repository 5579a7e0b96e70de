import LocaleLint.Tree.Basic
import LocaleLint.Tree.Key
import LocaleLint.Value.Scalar

/-! # Building a tree

A loaded mapping becomes a tree level by level: its keys become texts, the mappings among its values
become mappings, and every other value becomes a leaf with its text. Two keys of one mapping may not
become the same text. -/

namespace LocaleLint

/-- Why a loaded mapping is no tree. -/
inductive BuildError where
  /-- A key or a value has no text. -/
  | coercion (cause : CoercionError)
  /-- Two keys of a mapping have the same text, which is given with the way to it. -/
  | duplicateKey (key : String)
  deriving DecidableEq, Repr

namespace Tree

mutual

def ofValue (key : String) : Value → Except BuildError Tree
  | .mapping entries => (ofEntries key [] entries).map .mapping
  | v =>
    match v.scalarText with
    | .ok s => .ok (.leaf (String.ofList s))
    | .error e => .error (.coercion e)

/-- The tree's entries of the entries below a dotted key, where `taken` are the texts of the keys before
    them. -/
def ofEntries (parent : String) (taken : List String) : List (Value × Value) → Except BuildError Mapping
  | [] => .ok []
  | (k, v) :: rest =>
    match k.scalarText with
    | .error e => .error (.coercion e)
    | .ok s =>
      let key := String.ofList s
      let place := joinKey parent key
      if key ∈ taken then .error (.duplicateKey place)
      else
        match ofValue place v with
        | .error e => .error e
        | .ok tree =>
          match ofEntries parent (key :: taken) rest with
          | .error e => .error e
          | .ok others => .ok ((key, tree) :: others)

end

/-- The tree of a loaded mapping's entries below a dotted key. -/
def build (entries : List (Value × Value)) (parent : String) : Except BuildError Mapping := ofEntries parent [] entries

end Tree

end LocaleLint
