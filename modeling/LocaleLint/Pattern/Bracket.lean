/-! # Bracketed sets of characters

Between brackets stand characters and ranges, which are two ends with a hyphen between them. A hyphen at
the start or at the end of the set is a character. A range whose ends are in descending order is taken
out together with its ends. An exclamation mark in front of what is left turns the set into its
complement. -/

namespace LocaleLint.Pattern

/-- A set of characters as ranges with both ends, or the complement of one. -/
structure Bracket where
  negated : Bool
  ranges : List (Char × Char)
  deriving DecidableEq, Repr

namespace Bracket

def has (b : Bracket) (c : Char) : Bool := b.negated != b.ranges.any fun range => range.1 ≤ c && c ≤ range.2

/-- The pieces of a text cut at the hyphens that make ranges. A hyphen makes one if enough characters have
    gone by since the piece began; `wait` is how many of them are still to come. -/
def pieces (wait : Nat) (piece : List Char) : List Char → List (List Char)
  | [] => [piece.reverse]
  | c :: rest =>
    match wait with
    | wait + 1 => pieces wait (c :: piece) rest
    | 0 => if c = '-' then piece.reverse :: pieces 2 [] rest else pieces 0 (c :: piece) rest

/-- The pieces with a hyphen at the very end of the text as a character. -/
def closeLast : List (List Char) → List (List Char)
  | [piece, []] => [piece ++ ['-']]
  | piece :: rest => piece :: closeLast rest
  | [] => []

/-- The pieces without the ranges whose ends are in descending order. -/
def dropDescending : List (List Char) → List (List Char)
  | [] => []
  | piece :: rest =>
    match dropDescending rest, piece.getLast? with
    | (high :: more) :: others, some low =>
      if high < low then (piece.dropLast ++ more) :: others else piece :: (high :: more) :: others
    | others, _ => piece :: others

/-- The ranges of pieces: each two neighbours give one, and all other characters stand for themselves.
    Where an end is missing the hyphen is a character. -/
def rangesOf : List (List Char) → List (Char × Char)
  | [] => []
  | [piece] => piece.map fun c => (c, c)
  | piece :: next :: rest =>
    match piece.getLast?, next with
    | some low, high :: more => piece.dropLast.map (fun c => (c, c)) ++ (low, high) :: rangesOf (more :: rest)
    | _, _ => ('-', '-') :: rangesOf (next :: rest)
termination_by pieces => pieces.length

def ofText (text : List Char) : Bracket :=
  let wait := if text.head? = some '!' then 2 else 1
  match dropDescending (closeLast (pieces wait [] text)) with
  | ('!' :: piece) :: rest => ⟨true, rangesOf (piece :: rest)⟩
  | pieces => ⟨false, rangesOf pieces⟩

example : ofText "a-c".toList = ⟨false, [('a', 'c')]⟩ ∧ ofText "!a-".toList = ⟨true, [('a', 'a'), ('-', '-')]⟩ := by
  decide +kernel
example : ofText "--b".toList = ⟨false, [('-', 'b')]⟩ ∧ ofText "z-a".toList = ⟨false, []⟩ := by decide +kernel
example : ofText "z-a!".toList = ⟨true, []⟩ := by decide +kernel

end Bracket

end LocaleLint.Pattern
