/-! # Terminal styling

A control sequence starts with an escape character and a bracket, goes on with parameters and
intermediate characters, and ends with one final character. Plain text is text without them. -/

namespace LocaleLint.Text

def escapeChar : Char := '\x1b'

def codeIn (low high : Char) (c : Char) : Bool := low ≤ c && c ≤ high

/-- What follows the control sequence at the start of a text after its escape character. -/
def afterSequence? (s : List Char) : Option (List Char) :=
  match s with
  | '[' :: rest =>
    match (rest.dropWhile (codeIn '0' '?')).dropWhile (codeIn ' ' '/') with
    | c :: tail => if codeIn '@' '~' c then some tail else none
    | [] => none
  | _ => none

theorem length_dropWhile_le {α : Type} (p : α → Bool) (s : List α) : (s.dropWhile p).length ≤ s.length := by
  induction s with
  | nil => exact Nat.le_refl 0
  | cons a s ih =>
    rw [List.dropWhile_cons]
    split
    · exact Nat.le_succ_of_le ih
    · exact Nat.le_refl _

theorem length_lt_of_afterSequence? {s rest : List Char} (h : afterSequence? s = some rest) :
    rest.length < s.length := by
  unfold afterSequence? at h
  split at h
  · rename_i tail
    split at h
    · rename_i c tail' hdrop
      split at h
      · cases h
        have h₁ := length_dropWhile_le (codeIn ' ' '/') (tail.dropWhile (codeIn '0' '?'))
        have h₂ := length_dropWhile_le (codeIn '0' '?') tail
        rw [hdrop] at h₁
        simp only [List.length_cons] at h₁ ⊢
        omega
      · cases h
    · cases h
  · cases h

/-- A text without its control sequences. -/
def unstyled (s : List Char) : List Char :=
  match s with
  | [] => []
  | c :: rest =>
    if c = escapeChar then
      match _ended : afterSequence? rest with
      | some tail => unstyled tail
      | none => c :: unstyled rest
    else c :: unstyled rest
termination_by s.length
decreasing_by
  · have := length_lt_of_afterSequence? _ended
    simp only [List.length_cons]
    omega
  all_goals simp

/-- A text in red. -/
def red (s : List Char) : List Char := escapeChar :: "[31m".toList ++ s ++ escapeChar :: "[0m".toList

end LocaleLint.Text
