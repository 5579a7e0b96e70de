import LocaleLint.Proofs.Report.Check
import LocaleLint.Proofs.Rule.Search

/-! # The clause that a message format is blamed for

A clause for one reaches from its opening brace to the brace that balances it. The search for a 1 in it looks no
further than the line, but it does look past that brace: what it finds is a 1 inside the clause, or one in what
follows the clause on its line. -/

namespace LocaleLint

open Rule LocaleLint.Tree

namespace Rule

/-- Whether the brace before a text is not closed in it: nowhere do the closing braces outnumber the others. -/
def StaysOpen (s : List Char) : Prop := ∀ start, start <+: s → start.count '\x7d' ≤ start.count '\x7b'

/-- A clause for one up to a 1 inside it. -/
def NumberedClauseForm (part : List Char) : Prop := ∃ inside, part = oneClause ++ inside ++ ['1'] ∧ StaysOpen inside

/-- A clause for one with the brace that balances its opening, and what follows on its line up to a 1 and then a
    closing brace. -/
def PastClauseForm (part : List Char) : Prop :=
  ∃ inside between rest, part = oneClause ++ inside ++ '\x7d' :: between ++ '1' :: rest ++ ['\x7d'] ∧
    StaysOpen inside ∧ inside.count '\x7d' = inside.count '\x7b' ∧ '\n' ∉ inside ∧ '\n' ∉ between ∧ '\n' ∉ rest

instance : DecidablePred StaysOpen := fun s =>
  decidable_of_iff (∀ start ∈ s.inits, start.count '\x7d' ≤ start.count '\x7b') <| by
    simp only [StaysOpen, List.mem_inits]

instance : DecidablePred NumberedClauseForm := fun part =>
  decidable_of_iff (part = oneClause ++ (part.drop oneClause.length).dropLast ++ ['1'] ∧
      StaysOpen (part.drop oneClause.length).dropLast) <| by
    constructor
    · rintro ⟨split, opened⟩
      exact ⟨_, split, opened⟩
    · rintro ⟨inside, rfl, opened⟩
      simpa using opened

instance {Form : List Char → Prop} [DecidablePred Form] : DecidablePred (HasPart Form) := fun s =>
  decidable_of_iff (∃ rest ∈ s.tails, ∃ part ∈ rest.inits, Form part) <| by
    simp only [List.mem_tails, List.mem_inits]
    constructor
    · rintro ⟨_, ⟨before, rfl⟩, part, ⟨after, rfl⟩, form⟩
      exact ⟨before, part, after, by simp, form⟩
    · rintro ⟨before, part, after, rfl, form⟩
      exact ⟨part ++ after, ⟨before, by simp⟩, part, List.prefix_append _ _, form⟩

section Clause
variable {s part : List Char}

/-- A text in which the brace before it is closed has a first place where that happens. -/
theorem exists_closing_of_not_staysOpen (h : ¬ StaysOpen s) : ∃ inside after, s = inside ++ '\x7d' :: after ∧
    StaysOpen inside ∧ inside.count '\x7d' = inside.count '\x7b' := by
  induction s using List.reverseRecOn with
  | nil =>
    refine absurd (fun start starts => ?_) h
    simp [List.prefix_nil.mp starts]
  | append_singleton s c ih =>
    by_cases opened : StaysOpen s
    · -- The only start that can have too many closing braces is the whole text.
      have closes : (s ++ [c]).count '\x7b' < (s ++ [c]).count '\x7d' := by
        refine Nat.lt_of_not_le fun fits => h fun start starts => ?_
        rcases List.prefix_concat_iff.mp starts with rfl | starts
        · exact fits
        · exact opened start starts
      have fits := opened s (List.prefix_refl s)
      simp only [List.count_append, List.count_singleton] at closes
      obtain rfl : c = '\x7d' := by
        by_contra other
        have : (c == '\x7d') = false := by simpa using other
        simp only [this, Bool.false_eq_true, if_false] at closes
        omega
      refine ⟨s, [], rfl, opened, ?_⟩
      simp at closes
      omega
    · obtain ⟨inside, after, rfl, opened, balanced⟩ := ih opened
      exact ⟨inside, after ++ [c], by simp, opened, balanced⟩

theorem numberedOneForm_of_pastClauseForm (h : PastClauseForm part) : NumberedOneForm part := by
  obtain ⟨inside, between, rest, rfl, -, -, line, line', line''⟩ := h
  refine ⟨inside ++ '\x7d' :: between, rest, by simp, ?_, line''⟩
  simp [line, line']

/-- The 1 of a match is inside the clause, or the clause is closed before it. -/
theorem numberedClause_or_pastClause (h : NumberedOneForm part) :
    (∃ start, start <+: part ∧ NumberedClauseForm start) ∨ PastClauseForm part := by
  obtain ⟨inside, rest, rfl, line, line'⟩ := h
  by_cases opened : StaysOpen inside
  · exact Or.inl ⟨oneClause ++ inside ++ ['1'], ⟨rest ++ ['\x7d'], by simp⟩, inside, rfl, opened⟩
  · obtain ⟨within, between, rfl, opened, balanced⟩ := exists_closing_of_not_staysOpen opened
    right
    simp only [List.mem_append, List.mem_cons, not_or] at line
    exact ⟨within, between, rest, by simp, opened, balanced, line.1, line.2.2, line'⟩

theorem HasPart.imp {Form Other : List Char → Prop} (h : HasPart Form s)
    (starts : ∀ part, Form part → ∃ start, start <+: part ∧ Other start) : HasPart Other s := by
  obtain ⟨before, part, after, rfl, form⟩ := h
  obtain ⟨start, ⟨rest, rfl⟩, other⟩ := starts part form
  exact ⟨before, start, rest ++ after, by simp, other⟩

theorem hasNumberedOneClause_of_pastClause (h : HasPart PastClauseForm s) : hasNumberedOneClause s = true :=
  hasNumberedOneClause_iff.mpr <| h.imp fun part past =>
    ⟨part, List.prefix_refl part, numberedOneForm_of_pastClauseForm past⟩

theorem numbered_or_past_of_hasNumberedOneClause (h : hasNumberedOneClause s = true) :
    HasPart NumberedClauseForm s ∨ HasPart PastClauseForm s := by
  obtain ⟨before, part, after, rfl, form⟩ := hasNumberedOneClause_iff.mp h
  rcases numberedClause_or_pastClause form with ⟨start, ⟨rest, rfl⟩, numbered⟩ | past
  · exact Or.inl ⟨before, start, rest ++ after, by simp, numbered⟩
  · exact Or.inr ⟨before, part, after, rfl, past⟩

end Clause

end Rule

namespace Validator

/-- What a check reports for message formats: each key is that of a message format with a 1 inside a clause for
    one, or with one past such a clause on its line; and every message format of the second kind is reported,
    whether or not its clauses for one hold a 1. -/
theorem check_blames {ε : Type} (v : Validator) (tree : Mapping) :
    ∃ checked keys, (v.check tree : Run ε Validator).result = .ok checked ∧ (.messageFormatOne, keys) ∈ checked.errors ∧
      (∀ key ∈ keys, ∃ path text, (path, .leaf text) ∈ nodes (.mapping tree) ∧ dotted path = key ∧
        messageFormatEnd.toList <:+ key.toList ∧
        (HasPart NumberedClauseForm text.toList ∨ HasPart PastClauseForm text.toList)) ∧
      ∀ path text, (path, .leaf text) ∈ nodes (.mapping tree) → messageFormatEnd.toList <:+ (dotted path).toList →
        HasPart PastClauseForm text.toList → dotted path ∈ keys := by
  refine ⟨{ v with buckets := some (.ofTree tree) }, tree.violating .messageFormatOne, ?_, ?_, ?_, ?_⟩
  · rw [check_eq]
  · exact mem_errors_ofTree ..
  · intro key hkey
    obtain ⟨⟨path, node⟩, hnode, violates, rfl⟩ := Mapping.mem_violating.mp hkey
    cases node with
    | mapping m => exact absurd violates id
    | leaf text => exact ⟨path, text, hnode, rfl, violates.1, numbered_or_past_of_hasNumberedOneClause violates.2⟩
  · intro path text hnode format past
    exact Mapping.mem_violating.mpr ⟨_, hnode, ⟨format, hasNumberedOneClause_of_pastClause past⟩, rfl⟩

/-- A message format with a 1 in another clause than that for one. -/
def otherNumbered : Mapping := [("days_MF", .leaf "\x7bn, plural, one \x7b# day\x7d other \x7bover 1 day\x7d\x7d")]

/-- A message format is reported although no clause for one in it holds a 1. -/
theorem check_blames_otherClause : ∃ checked,
    ((ofFilename "en.yml").check otherNumbered : Run ValidatorError Validator).result = .ok checked ∧
      (.messageFormatOne, ["days_MF"]) ∈ checked.errors ∧
      ∀ path text, (path, .leaf text) ∈ nodes (.mapping otherNumbered) → ¬ HasPart NumberedClauseForm text.toList := by
  have found : otherNumbered.violating .messageFormatOne = ["days_MF"] := by decide +kernel
  refine ⟨{ ofFilename "en.yml" with buckets := some (.ofTree otherNumbered) }, ?_, ?_, ?_⟩
  · rw [check_eq]
  · rw [← found]
    exact mem_errors_ofTree ..
  · intro path text h
    have only : path = ["days_MF"] ∧ text = "\x7bn, plural, one \x7b# day\x7d other \x7bover 1 day\x7d\x7d" := by
      simpa [otherNumbered, nodes, nodesBelow] using h
    rw [only.2]
    decide +kernel

end Validator

end LocaleLint
