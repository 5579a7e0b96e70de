import LocaleLint.Calendar.Date
import LocaleLint.Entries
import LocaleLint.Number.Binary64

/-! # Loaded values

What a document holds once its scalars have their types and its aliases are followed. Two markers
stand where a container holds itself: following further would come back to the same place. -/

namespace LocaleLint

inductive Container where
  | list
  | tuple
  | set
  | mapping
  deriving DecidableEq, Repr

inductive Value where
  | null
  | bool (b : Bool)
  | int (n : Int)
  | float (x : Binary64)
  /-- What is not a number, with the object that it is when that can be met twice. -/
  | nan (object : Option Nat)
  | text (s : String)
  | bytes (b : List UInt8)
  | date (d : Date)
  | moment (t : Moment)
  | list (items : List Value)
  | tuple (items : List Value)
  | set (items : List Value)
  | mapping (entries : List (Value × Value))
  /-- A container met again inside itself while it is being printed. -/
  | again (kind : Container)
  /-- A container met again inside itself while it is being read as text. -/
  | endless
  deriving Repr, Inhabited

namespace Value

/-- The integer that a value is as a key: truth values are 1 and 0. -/
def asInt? : Value → Option Int
  | bool b => some (if b then 1 else 0)
  | int n => some n
  | _ => none

/-- Whether two values that hold no other values are the same key: numbers by value, moments by
    instant, and what is not a number only with itself. -/
def sameAtom (v w : Value) : Bool :=
  match v, w with
  | null, null => true
  | float x, float y => x.sameValue y
  | nan (some i), nan (some j) => i == j
  | text s, text t => s == t
  | bytes a, bytes b => a == b
  | date d, date e => d == e
  | moment t, moment u => t.sameInstant u
  | float x, w => (w.asInt?.map x.isInt).getD false
  | v, float y => (v.asInt?.map y.isInt).getD false
  | v, w => v.asInt?.isSome && v.asInt? == w.asInt?

mutual

/-- Whether two values are the same key of a mapping. -/
def sameKey : Value → Value → Bool
  | tuple items, tuple others => sameKeys items others
  | v, w => sameAtom v w

/-- Whether two lists of values are the same keys one by one. -/
def sameKeys : List Value → List Value → Bool
  | [], [] => true
  | v :: vs, w :: ws => sameKey v w && sameKeys vs ws
  | _, _ => false

end

/-- The mapping that pairs give when they come in one after another. -/
def ofPairs (pairs : List (Value × Value)) : Value := .mapping (Entries.ofList sameKey pairs)

/-- Whether a value counts as absent where one is optional: null, false, zero and what is empty. -/
def isBlank : Value → Bool
  | null => true
  | bool b => !b
  | int n => n == 0
  | float x => x.isInt 0
  | text s => s.isEmpty
  | bytes b => b.isEmpty
  | list items | tuple items | set items => items.isEmpty
  | mapping entries => entries.isEmpty
  | _ => false

example : sameKey (.int 1) (.bool true) ∧ sameKey (.float (.zero true)) (.int 0) ∧ ¬ sameKey (.text "1") (.int 1) := by
  decide +kernel

end Value

end LocaleLint
