/-! # Searching a text

A text is searched as a list of characters: every suffix is a place where a match may start, and a
matcher looks at the start of one suffix. -/

namespace LocaleLint.Text

/-- Whether a matcher accepts some suffix of a text, the empty one included. -/
def searches (matcher : List Char → Bool) : List Char → Bool
  | [] => matcher []
  | c :: rest => matcher (c :: rest) || searches matcher rest

def occursIn (part whole : List Char) : Bool := searches part.isPrefixOf whole

theorem searches_eq_true_iff {matcher : List Char → Bool} {s : List Char} :
    searches matcher s = true ↔ ∃ before rest, s = before ++ rest ∧ matcher rest = true := by
  induction s with
  | nil =>
    constructor
    · intro h
      exact ⟨[], [], rfl, h⟩
    · rintro ⟨before, rest, split, h⟩
      obtain ⟨rfl, rfl⟩ := List.append_eq_nil_iff.mp split.symm
      exact h
  | cons c tail ih =>
    simp only [searches, Bool.or_eq_true, ih]
    constructor
    · rintro (h | ⟨before, rest, rfl, h⟩)
      · exact ⟨[], _, rfl, h⟩
      · exact ⟨c :: before, rest, rfl, h⟩
    · rintro ⟨before, rest, split, h⟩
      cases before with
      | nil =>
        cases split
        exact Or.inl h
      | cons d before =>
        obtain ⟨rfl, rfl⟩ := List.cons.inj split
        exact Or.inr ⟨before, rest, rfl, h⟩

theorem occursIn_eq_true_iff {part whole : List Char} : occursIn part whole = true ↔ part <:+: whole := by
  simp only [occursIn, searches_eq_true_iff, List.isPrefixOf_iff_prefix]
  constructor
  · rintro ⟨before, rest, rfl, tail, rfl⟩
    exact ⟨before, tail, by simp⟩
  · rintro ⟨before, tail, rfl⟩
    exact ⟨before, part ++ tail, by simp, List.prefix_append _ _⟩

end LocaleLint.Text
