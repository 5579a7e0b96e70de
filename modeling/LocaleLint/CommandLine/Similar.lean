/-! # Similar names

Two names are compared by their common parts: the longest common part, and the common parts of what
stands before it and of what stands after it. They are similar if the common parts make up three fifths
of both. -/

namespace LocaleLint.CommandLine

/-- The length of the longest common beginning of two texts. -/
def commonStart : List Char → List Char → Nat
  | c :: s, d :: t => if c = d then commonStart s t + 1 else 0
  | _, _ => 0

/-- A common part of two texts: where it starts in each of them, and its length. -/
structure CommonPart where
  left : Nat
  right : Nat
  length : Nat

/-- The longer of two common parts, the first one if they are equally long. -/
def CommonPart.longer (a b : CommonPart) : CommonPart := if a.length < b.length then b else a

/-- The longest common part of two texts, the leftmost one of the first text if there are several. -/
def longestCommonPart (s t : List Char) : CommonPart :=
  let places := (List.range s.length).flatMap fun i =>
    (List.range t.length).map fun j => ⟨i, j, commonStart (s.drop i) (t.drop j)⟩
  places.foldl CommonPart.longer ⟨0, 0, 0⟩

/-- The number of characters in the common parts of two texts. The fuel is at least the length of the
    first text. -/
def commonLength : Nat → List Char → List Char → Nat
  | 0, _, _ => 0
  | fuel + 1, s, t =>
    let part := longestCommonPart s t
    if part.length = 0 then 0
    else
      commonLength fuel (s.take part.left) (t.take part.right) + part.length +
        commonLength fuel (s.drop (part.left + part.length)) (t.drop (part.right + part.length))

/-- The number of characters that two names have in common. -/
def commonCount (a b : String) : Nat := commonLength a.length a.toList b.toList

def isSimilar (a b : String) : Bool := 3 * (a.length + b.length) ≤ 10 * commonCount a b

def similarNames (name : String) (known : List String) : List String := known.filter (isSimilar · name)

example : similarNames "--config-folde" ["--config-folder", "--help"] = ["--config-folder"] := by decide +kernel

end LocaleLint.CommandLine
