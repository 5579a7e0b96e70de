import LocaleLint.Pattern.Bracket

/-! # Patterns of names

In a pattern a star stands for any text, a question mark for any one character, and a bracketed set for
one character of the set; every other character stands for itself. A bracket that is not closed stands
for itself too. A pattern matches whole names. -/

namespace LocaleLint

/-- One part of a pattern. -/
inductive Wildcard where
  | anyText
  | anyOne
  | oneOf (set : Pattern.Bracket)
  | exactly (c : Char)
  deriving DecidableEq, Repr

def Wildcard.standsFor : Wildcard → Char → Bool
  | .anyText, _ | .anyOne, _ => true
  | .oneOf set, c => set.has c
  | .exactly d, c => c == d

/-- The parts of a pattern in order. -/
abbrev Pattern := List Wildcard

namespace Pattern

/-- The text before the bracket that closes a set, and what follows it. The first character of a set is in
    the set even if it is a closing bracket; `first` says that none has come yet. -/
def closing? (first : Bool) : List Char → Option (List Char × List Char)
  | [] => none
  | c :: rest =>
    if c = ']' ∧ !first then some ([], rest) else (closing? false rest).map fun found => (c :: found.1, found.2)

/-- The text of a set that starts after an opening bracket, and what follows the set. -/
def bracket? : List Char → Option (List Char × List Char)
  | '!' :: rest => (closing? true rest).map fun found => ('!' :: found.1, found.2)
  | rest => closing? true rest

theorem length_closing? {first : Bool} {s text rest : List Char} (h : closing? first s = some (text, rest)) :
    rest.length < s.length := by
  induction s generalizing first text rest with
  | nil => cases h
  | cons c tail ih =>
    simp only [closing?] at h
    split at h
    · cases h
      simp
    · obtain ⟨found, hfound, hpair⟩ := Option.map_eq_some_iff.mp h
      cases hpair
      have := ih hfound
      simp only [List.length_cons]
      omega

theorem length_bracket? {s text rest : List Char} (h : bracket? s = some (text, rest)) : rest.length < s.length := by
  unfold bracket? at h
  split at h
  · obtain ⟨found, hfound, hpair⟩ := Option.map_eq_some_iff.mp h
    cases hpair
    have := length_closing? hfound
    simp only [List.length_cons]
    omega
  · exact length_closing? h

def ofText (s : List Char) : Pattern :=
  match s with
  | [] => []
  | '*' :: rest => .anyText :: ofText rest
  | '?' :: rest => .anyOne :: ofText rest
  | '[' :: rest =>
    match _closed : bracket? rest with
    | some found => .oneOf (.ofText found.1) :: ofText found.2
    | none => .exactly '[' :: ofText rest
  | c :: rest => .exactly c :: ofText rest
termination_by s.length
decreasing_by
  all_goals simp_wf
  have := length_bracket? _closed
  omega

/-- Whether some element of a list is true, for each element together with those after it. -/
def someFromHere : List Bool → List Bool
  | [] => []
  | b :: rest =>
    let later := someFromHere rest
    (b || later.headD false) :: later

/-- For each end of a name, from the whole name down to the empty text, whether one character that passes
    a test comes first in it and the rest of it is matched, given which ends are matched. -/
def oneBefore (test : Char → Bool) (s : List Char) (matched : List Bool) : List Bool :=
  List.zipWith (fun c b => test c && b) s matched.tail ++ [false]

/-- For each end of a name, from the whole name down to the empty text, whether a pattern matches it. -/
def matchedEnds (s : List Char) : Pattern → List Bool
  | [] => s.map (fun _ => false) ++ [true]
  | .anyText :: parts => someFromHere (matchedEnds s parts)
  | part :: parts => oneBefore part.standsFor s (matchedEnds s parts)

/-- Whether a pattern matches a name. -/
def accepts (pattern : Pattern) (s : List Char) : Bool := (matchedEnds s pattern).headD false

/-- Whether a text holds a character that can make it stand for other texts. -/
def isWild (s : List Char) : Bool := s.any fun c => c == '*' || c == '?' || c == '['

example : (ofText "[]a]?*".toList).accepts "]b".toList ∧ ¬ (ofText "a[".toList).accepts "a".toList := by
  decide +kernel

end Pattern

end LocaleLint
