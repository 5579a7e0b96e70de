import LocaleLint.Value.Basic

/-! # The order of a set

A set of numbers is shown in the order of a table whose size is a power of two. Each number has a code,
equal numbers the same one. A member is put into the first free place on a way through the table that
starts at the remainder of its code by the table's size and is led on by the rest of the code.

Values of other types have no code that is the same in every run, so a set that holds one of them keeps the
order in which its members came. -/

namespace LocaleLint.Value

/-! ### Codes -/

/-- The prime that the codes of numbers are reduced by. -/
def codePrime : Nat := Nat.pow 2 61 - 1

/-- The code of 64 bits of a reduced magnitude with a sign. No code is minus one: minus two stands for it. -/
def signedCode (negative : Bool) (magnitude : Nat) : Nat :=
  if !negative || magnitude = 0 then magnitude
  else Nat.pow 2 64 - (if magnitude = 1 then 2 else magnitude)

/-- The code of a number, which depends on its value only: the powers of two modulo the prime repeat after
    61 steps, so those with a negative exponent have codes as well. -/
def code? (v : Value) : Option Nat :=
  match v with
  | float (.finite negative m q) =>
    some (signedCode negative (m * Nat.pow 2 (q % 61).toNat % codePrime))
  | float (.infinite negative) => some (signedCode negative 314159)
  | v => v.asInt?.map fun n => signedCode (n < 0) (n.natAbs % codePrime)

/-! ### The table -/

/-- The places that are tried together: one, and the nine after it if the table has them all. -/
def placesFrom (size start : Nat) : List Nat :=
  if start + 9 < size then (List.range 10).map (start + ·) else [start]

/-- The first free place on the way that starts at a place and is led on by a code. -/
def freePlace (table : Array (Option Value)) : Nat → Nat → Nat → Nat
  | 0, start, _ => start
  | n + 1, start, code =>
    match (placesFrom table.size start).find? fun place => (table.getD place none).isNone with
    | some place => place
    | none => freePlace table n ((5 * start + 1 + code / 32) % table.size) (code / 32)

/-- A table with one more member. The code is used up after 13 steps, and from then on the way leads through
    all places. -/
def file (table : Array (Option Value)) (code : Nat) (v : Value) : Array (Option Value) :=
  table.setIfInBounds (freePlace table (table.size + 13) (code % table.size) code) (some v)

/-- The size of the table for a number of members: the least power of two that is more than twice as much,
    and eight for up to four members. -/
def tableSize (count : Nat) : Nat :=
  if count < 5 then 8 else Nat.pow 2 ((2 * count).log2 + 1)

/-- The members of a set in the order in which they are shown. -/
def inTableOrder (members : List Value) : List Value :=
  match members.mapM code? with
  | none => members
  | some codes =>
    let table := (codes.zip members).foldl (fun table (code, v) => file table code v)
      (Array.replicate (tableSize members.length) none)
    table.toList.filterMap id

example : (inTableOrder [.int 3, .int 9, .bool true]).map asInt? = [some 9, some 3, some 1] := by decide +kernel

end LocaleLint.Value
