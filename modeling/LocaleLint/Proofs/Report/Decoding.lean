import LocaleLint.Proofs.Lint.File

/-! # Reading printed reports

Reports that are printed one after another can be told apart again. Without its styling each line shows by its start
what it is, and only the first line of a description names a rule. Lines are read from the last one up: the lines of
keys belong to the description above them, and descriptions to the heading above them. -/

namespace LocaleLint

open Text

/-! ### Styling -/

namespace Text

theorem unstyled_append {s : List Char} (plain : escapeChar ∉ s) (rest : List Char) :
    unstyled (s ++ rest) = s ++ unstyled rest := by
  induction s with
  | nil => rfl
  | cons c s ih =>
    have first : c ≠ escapeChar := fun same => plain (same ▸ List.mem_cons_self)
    have others : escapeChar ∉ s := fun member => plain (List.mem_cons_of_mem c member)
    rw [List.cons_append, unstyled, if_neg first, ih others, List.cons_append]

/-- The styling around a text in red is left out. -/
theorem unstyled_red {s : List Char} (plain : escapeChar ∉ s) (rest : List Char) :
    unstyled (red s ++ rest) = s ++ unstyled rest := by
  have first : unstyled (escapeChar :: "[31m".toList ++ (s ++ escapeChar :: "[0m".toList ++ rest)) =
      unstyled (s ++ (escapeChar :: "[0m".toList ++ rest)) := by
    rw [List.append_assoc, List.cons_append, unstyled, if_pos rfl]
    rfl
  have last : unstyled (escapeChar :: "[0m".toList ++ rest) = unstyled rest := by
    rw [List.cons_append, unstyled, if_pos rfl]
    rfl
  rw [red, List.append_assoc, List.append_assoc, ← List.append_assoc s, first, unstyled_append plain, last]

end Text

/-! ### Plain texts -/

/-- Whether a text has no line feed and no escape character. -/
def IsPlain (s : List Char) : Prop := '\n' ∉ s ∧ escapeChar ∉ s

instance : DecidablePred IsPlain := fun s => inferInstanceAs (Decidable ('\n' ∉ s ∧ escapeChar ∉ s))

theorem isPlain_append {s t : List Char} (hs : IsPlain s) (ht : IsPlain t) : IsPlain (s ++ t) :=
  ⟨fun h => (List.mem_append.mp h).elim hs.1 ht.1, fun h => (List.mem_append.mp h).elim hs.2 ht.2⟩

/-- Whether the name of a report's file and all its keys are plain. -/
structure FileReport.IsPlain (report : FileReport Rule) : Prop where
  filename : LocaleLint.IsPlain report.filename.toList
  keys : ∀ entry ∈ report.violations, ∀ key ∈ entry.2, LocaleLint.IsPlain key.toList

namespace Report

/-! ### Lines -/

def headingStart : List Char := "Errors in ".toList

/-- A line of a description. -/
def descriptionText (s : String) : List Char := ' ' :: ' ' :: s.toList

/-- The texts of the lines of a rule with keys. -/
def ruleTexts (entry : Rule × List String) : List (List Char) :=
  entry.1.description.map descriptionText ++ entry.2.map fun key => bulletStart ++ key.toList

/-- The texts of the lines of a report without styling. -/
def texts (report : FileReport Rule) : List (List Char) :=
  [] :: (headingStart ++ report.filename.toList) :: report.violations.flatMap ruleTexts

/-- What makes a line of a description one that is neither broken nor taken for the line of a key. -/
structure IsDescription (s : String) : Prop where
  plain : IsPlain (descriptionText s)
  other : bulletStart.isPrefixOf (descriptionText s) = false

/-- The same of the characters of a text. -/
theorem isDescription_ofList {s : List Char}
    (h : IsPlain (' ' :: ' ' :: s) ∧ bulletStart.isPrefixOf (' ' :: ' ' :: s) = false) :
    IsDescription (String.ofList s) := by
  have text : descriptionText (String.ofList s) = ' ' :: ' ' :: s := by rw [descriptionText, String.toList_ofList]
  exact ⟨text ▸ h.1, text ▸ h.2⟩

theorem isDescription (rule : Rule) : ∀ s ∈ rule.description, IsDescription s := by
  cases rule with
  | pluralizationKeys | missingPluralization =>
    exact List.forall_mem_cons.mpr ⟨isDescription_ofList (by decide +kernel),
      List.forall_mem_singleton.mpr (isDescription_ofList (by decide +kernel))⟩
  | _ => exact List.forall_mem_singleton.mpr (isDescription_ofList (by decide +kernel))

theorem isPlain_ruleTexts {entry : Rule × List String} (keys : ∀ key ∈ entry.2, IsPlain key.toList) :
    ∀ text ∈ ruleTexts entry, IsPlain text := by
  rw [ruleTexts, List.forall_mem_append, List.forall_mem_map, List.forall_mem_map]
  exact ⟨fun s member => (isDescription entry.1 s member).plain, fun key member => isPlain_append (by decide) (keys key member)⟩

theorem isPlain_texts {report : FileReport Rule} (plain : report.IsPlain) : ∀ text ∈ texts report, IsPlain text := by
  refine List.forall_mem_cons.mpr ⟨by decide, List.forall_mem_cons.mpr ⟨isPlain_append (by decide) plain.filename, ?_⟩⟩
  intro text member
  obtain ⟨entry, hentry, member⟩ := List.mem_flatMap.mp member
  exact isPlain_ruleTexts (plain.keys entry hentry) text member

theorem escapeChar_not_mem_lines {texts : List (List Char)} (plain : ∀ text ∈ texts, IsPlain text) :
    escapeChar ∉ (texts.map line).flatten := by
  rw [← List.flatMap_def]
  intro member
  obtain ⟨text, htext, member⟩ := List.mem_flatMap.mp member
  rcases List.mem_append.mp member with member | member
  · exact (plain text htext).2 member
  · exact absurd (List.mem_singleton.mp member) (by decide)

theorem lines_eq (filename : String) (violations : List (Rule × List String)) : lines filename violations =
    line [] :: line (red (headingStart ++ filename.toList)) :: (violations.flatMap ruleTexts).map line := by
  have rules : ∀ entry : Rule × List String, ruleLines entry.1 entry.2 = (ruleTexts entry).map line := by
    intro entry
    rw [ruleLines, ruleTexts, List.map_append, List.map_map, List.map_map]
    rfl
  rw [lines, List.map_flatMap, funext rules]
  rfl

theorem unstyled_line_red {s : List Char} (plain : escapeChar ∉ s) (rest : List Char) :
    unstyled (line (red s) ++ rest) = line s ++ unstyled rest := by
  have feed : escapeChar ∉ ['\n'] := by decide
  rw [line, line, List.append_assoc, List.append_assoc, unstyled_red plain, unstyled_append feed]

/-- What is printed for a report is its lines but for the styling. -/
theorem unstyled_block {report : FileReport Rule} (plain : report.IsPlain) (rest : List Char) :
    unstyled (block report.filename report.violations ++ rest) = ((texts report).map line).flatten ++ unstyled rest := by
  have blank : escapeChar ∉ line [] := by decide
  have heading : escapeChar ∉ headingStart ++ report.filename.toList :=
    (isPlain_append (by decide) plain.filename).2
  have rules : escapeChar ∉ ((report.violations.flatMap ruleTexts).map line).flatten :=
    escapeChar_not_mem_lines fun text member => by
      obtain ⟨entry, hentry, member⟩ := List.mem_flatMap.mp member
      exact isPlain_ruleTexts (plain.keys entry hentry) text member
  rw [block, lines_eq, texts]
  simp only [List.map_cons, List.flatten_cons, List.append_assoc]
  rw [unstyled_append blank, unstyled_line_red heading, unstyled_append rules]

/-- What is printed for reports one after another is their lines but for the styling. -/
theorem unstyled_blocks {reports : List (FileReport Rule)} (plain : ∀ report ∈ reports, report.IsPlain) :
    unstyled (reports.flatMap fun report => block report.filename report.violations) =
      ((reports.flatMap texts).map line).flatten := by
  induction reports with
  | nil => rw [List.flatMap_nil, unstyled, List.flatMap_nil, List.map_nil, List.flatten_nil]
  | cons report rest ih =>
    obtain ⟨first, others⟩ := List.forall_mem_cons.mp plain
    rw [List.flatMap_cons, unstyled_block first, ih others, List.flatMap_cons, List.map_append, List.flatten_append]

/-- Lines without line feeds are told apart by them. -/
theorem splitOn_lines {texts : List (List Char)} (plain : ∀ text ∈ texts, IsPlain text) :
    (texts.map line).flatten.splitOn '\n' = texts ++ [[]] := by
  induction texts with
  | nil => rfl
  | cons text rest ih =>
    obtain ⟨first, others⟩ := List.forall_mem_cons.mp plain
    rw [List.map_cons, List.flatten_cons, line, List.append_assoc, List.singleton_append,
      List.splitOn_append_cons_self_of_not_mem first.1, ih others, List.cons_append]

/-! ### Reading lines -/

/-- What a line tells. -/
inductive LineKind where
  | heading (filename : String)
  /-- The first line of the description of a rule. -/
  | rule (rule : Rule)
  | key (key : String)
  | other
  deriving DecidableEq

/-- The rule whose description starts with a line. -/
def describedRule? (text : List Char) : Option Rule :=
  Rule.all.find? fun rule => rule.description.head?.map descriptionText = some text

def kindOf (text : List Char) : LineKind :=
  if bulletStart.isPrefixOf text then .key (String.ofList (text.drop bulletStart.length))
  else if headingStart.isPrefixOf text then .heading (String.ofList (text.drop headingStart.length))
  else
    match describedRule? text with
    | some rule => .rule rule
    | none => .other

/-- What has been read of reports: the keys of a rule whose description is not reached yet, the violations of a
    report whose heading is not reached yet, and whole reports. -/
structure Reading where
  keys : List String
  violations : List (Rule × List String)
  reports : List (FileReport Rule)

namespace Reading

/-- What has been read with a line in front. -/
def withLine (kind : LineKind) (after : Reading) : Reading :=
  match kind with
  | .key key => { after with keys := key :: after.keys }
  | .rule rule => { after with keys := [], violations := (rule, after.keys) :: after.violations }
  | .heading filename => { after with violations := [], reports := ⟨filename, after.violations⟩ :: after.reports }
  | .other => after

/-- What has been read with lines in front. -/
def withLines (kinds : List LineKind) (after : Reading) : Reading := kinds.foldr withLine after

end Reading

/-- The reports that printed text without styling shows. -/
def ofPrinted (text : List Char) : List (FileReport Rule) :=
  (Reading.withLines ((text.splitOn '\n').map kindOf) ⟨[], [], []⟩).reports

/-! ### The lines of a report -/

/-- What the lines of a rule with keys tell. -/
def ruleKinds (entry : Rule × List String) : List LineKind :=
  .rule entry.1 :: List.replicate (entry.1.description.length - 1) .other ++ entry.2.map .key

/-- What the lines of a report tell. -/
def kinds (report : FileReport Rule) : List LineKind :=
  .other :: .heading report.filename :: report.violations.flatMap ruleKinds

theorem kindOf_nil : kindOf [] = .other := by
  have none : describedRule? [] = none := by
    refine List.find?_eq_none.mpr fun rule _ => ?_
    rw [decide_eq_true_iff]
    cases rule.description.head? with
    | none => nofun
    | some s => exact fun h => List.cons_ne_nil _ _ (Option.some.inj h)
  rw [kindOf, none]
  rfl

theorem kindOf_key (key : String) : kindOf (bulletStart ++ key.toList) = .key key := by
  rw [kindOf, if_pos (List.isPrefixOf_iff_prefix.mpr (List.prefix_append _ _)), List.drop_left, String.ofList_toList]

theorem kindOf_heading (filename : String) : kindOf (headingStart ++ filename.toList) = .heading filename := by
  have other : ¬ bulletStart.isPrefixOf (headingStart ++ filename.toList) = true := Bool.false_ne_true
  rw [kindOf, if_neg other, if_pos (List.isPrefixOf_iff_prefix.mpr (List.prefix_append _ _)), List.drop_left,
    String.ofList_toList]

theorem ofList_ne {s t : List Char} (h : s ≠ t) : String.ofList s ≠ String.ofList t := mt String.ofList_inj.mp h

/-- Descriptions of different rules start with different lines. -/
theorem rule_eq_of_head {rule other : Rule} (h : rule.description.head? = other.description.head?) : rule = other := by
  -- Texts are compared as lists of characters, which is quicker than as literals.
  cases rule <;> cases other <;> first
    | rfl
    | exact absurd (Option.some.inj h) (ofList_ne (by decide +kernel))

/-- No description starts with a later line of a description. -/
theorem head_ne_of_tail {rule other : Rule} {s : String} (h : s ∈ rule.description.tail) :
    other.description.head? ≠ some s := by
  intro head
  cases rule with
  -- The only descriptions of more than one line.
  | pluralizationKeys | missingPluralization =>
    obtain rfl := List.mem_singleton.mp h
    cases other <;> exact absurd (Option.some.inj head) (ofList_ne (by decide +kernel))
  | _ => exact List.not_mem_nil h

theorem head_eq_iff {rule : Rule} {s : String} :
    rule.description.head?.map descriptionText = some (descriptionText s) ↔ rule.description.head? = some s := by
  have injective : Function.Injective descriptionText := fun s t same =>
    String.toList_inj.mp (List.cons.inj (List.cons.inj same).2).2
  exact (Option.map_injective injective).eq_iff (b := some s)

theorem describedRule?_of_head {rule : Rule} {s : String} (h : rule.description.head? = some s) :
    describedRule? (descriptionText s) = some rule := by
  cases found : describedRule? (descriptionText s) with
  | none =>
    have missing := List.find?_eq_none.mp found rule (Rule.mem_all rule)
    rw [decide_eq_true_iff, head_eq_iff] at missing
    exact absurd h missing
  | some other =>
    have same := List.find?_some found
    rw [decide_eq_true_iff, head_eq_iff] at same
    rw [rule_eq_of_head (same.trans h.symm)]

theorem describedRule?_of_tail {rule : Rule} {s : String} (h : s ∈ rule.description.tail) :
    describedRule? (descriptionText s) = none := by
  refine List.find?_eq_none.mpr fun other _ => ?_
  rw [decide_eq_true_iff, head_eq_iff]
  exact head_ne_of_tail h

theorem kindOf_description {rule : Rule} {s : String} (h : s ∈ rule.description) : kindOf (descriptionText s) =
    match describedRule? (descriptionText s) with
    | some rule => .rule rule
    | none => .other := by
  have noHeading : ¬ headingStart.isPrefixOf (descriptionText s) = true := Bool.false_ne_true
  rw [kindOf, if_neg (ne_true_of_eq_false (isDescription rule s h).other), if_neg noHeading]

/-- A description shows its rule by its first line only. -/
theorem map_kindOf_description (rule : Rule) : rule.description.map (fun s => kindOf (descriptionText s)) =
    .rule rule :: List.replicate (rule.description.length - 1) .other := by
  obtain ⟨s, later, split⟩ := List.exists_cons_of_ne_nil (Rule.description_ne_nil rule)
  have first : kindOf (descriptionText s) = .rule rule := by
    rw [kindOf_description (split ▸ List.mem_cons_self), describedRule?_of_head (by rw [split]; rfl)]
  have others : ∀ t ∈ later, kindOf (descriptionText t) = .other := fun t member => by
    rw [kindOf_description (split ▸ List.mem_cons_of_mem s member), describedRule?_of_tail (by rw [split]; exact member)]
  rw [split, List.map_cons, first, List.map_eq_replicate_iff.mpr others]
  rfl

theorem map_kindOf_ruleTexts (entry : Rule × List String) : (ruleTexts entry).map kindOf = ruleKinds entry := by
  have description := map_kindOf_description entry.1
  rw [ruleTexts, List.map_append, List.map_map, List.map_map]
  simp only [Function.comp_def, description, kindOf_key]
  rfl

theorem map_kindOf_texts (report : FileReport Rule) : (texts report).map kindOf = kinds report := by
  rw [texts, List.map_cons, List.map_cons, kindOf_nil, kindOf_heading, List.map_flatMap]
  simp only [map_kindOf_ruleTexts]
  rfl

namespace Reading

theorem withLines_append (kinds more : List LineKind) (after : Reading) :
    withLines (kinds ++ more) after = withLines kinds (withLines more after) := List.foldr_append

theorem withLines_replicate (n : Nat) (after : Reading) : withLines (List.replicate n .other) after = after := by
  induction n with
  | zero => rfl
  | succ n ih => exact ih

theorem withLines_keys (keys : List String) (after : Reading) :
    withLines (keys.map .key) after = { after with keys := keys ++ after.keys } := by
  induction keys with
  | nil => rfl
  | cons key rest ih =>
    show withLine (.key key) (withLines (rest.map .key) after) = _
    rw [ih]
    rfl

theorem withLines_rule (entry : Rule × List String) (violations : List (Rule × List String))
    (reports : List (FileReport Rule)) :
    withLines (ruleKinds entry) ⟨[], violations, reports⟩ = ⟨[], entry :: violations, reports⟩ := by
  rw [ruleKinds, withLines_append, withLines_keys, List.append_nil]
  show withLine (.rule entry.1) (withLines (List.replicate _ .other) _) = _
  rw [withLines_replicate]
  rfl

theorem withLines_rules (entries violations : List (Rule × List String)) (reports : List (FileReport Rule)) :
    withLines (entries.flatMap ruleKinds) ⟨[], violations, reports⟩ = ⟨[], entries ++ violations, reports⟩ := by
  induction entries with
  | nil => rfl
  | cons entry rest ih => rw [List.flatMap_cons, withLines_append, ih, withLines_rule, List.cons_append]

theorem withLines_report (report : FileReport Rule) (reports : List (FileReport Rule)) :
    withLines (kinds report) ⟨[], [], reports⟩ = ⟨[], [], report :: reports⟩ := by
  show withLine (.heading report.filename) (withLines (report.violations.flatMap ruleKinds) _) = _
  rw [withLines_rules, List.append_nil]
  rfl

theorem withLines_reports (reports : List (FileReport Rule)) :
    withLines (reports.flatMap kinds) ⟨[], [], []⟩ = ⟨[], [], reports⟩ := by
  induction reports with
  | nil => rfl
  | cons report rest ih => rw [List.flatMap_cons, withLines_append, ih, withLines_report]

end Reading

/-- Printed reports are read back as they were. -/
theorem ofPrinted_blocks {reports : List (FileReport Rule)} (plain : ∀ report ∈ reports, report.IsPlain) :
    ofPrinted (unstyled (reports.flatMap fun report => block report.filename report.violations)) = reports := by
  have lines : ∀ text ∈ reports.flatMap texts, IsPlain text := fun text member => by
    obtain ⟨report, hreport, member⟩ := List.mem_flatMap.mp member
    exact isPlain_texts (plain report hreport) text member
  have last : Reading.withLines ([[]].map kindOf) ⟨[], [], []⟩ = ⟨[], [], []⟩ := by
    rw [List.map_singleton, kindOf_nil]
    rfl
  rw [ofPrinted, unstyled_blocks plain, splitOn_lines lines, List.map_append, Reading.withLines_append, last,
    List.map_flatMap]
  simp only [map_kindOf_texts, Reading.withLines_reports]

end Report

end LocaleLint
