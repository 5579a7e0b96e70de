import LocaleLint.Lint.File
import LocaleLint.Proofs.Journal
import LocaleLint.Proofs.Logging.Messages
import LocaleLint.Proofs.Report.Check

/-! # What linting one file leaves

A file that holds a locale is always linted to the end. It is printed one block if its tree has a violation
and nothing otherwise, and one entry of the log tells which of the two it is. -/

namespace LocaleLint

/-! ### Bullets -/

/-- What the line of a key starts with. -/
def bulletStart : List Char := "    * ".toList

/-- Whether an act prints the line of a key. -/
def Act.isBullet : Act → Bool
  | .print text => bulletStart.isPrefixOf text
  | .log _ => false

/-- The number of lines of keys that are printed. -/
def Journal.bulletCount (journal : Journal) : Nat := journal.acts.countP Act.isBullet

theorem Journal.bulletCount_append (a b : Journal) : (a ++ b).bulletCount = a.bulletCount + b.bulletCount :=
  List.countP_append

@[simp] theorem Journal.bulletCount_entry (e : LogEntry) : (entry e).bulletCount = 0 := rfl

theorem Journal.bulletCount_prints (texts : List (List Char)) :
    (prints texts).bulletCount = texts.countP fun text => bulletStart.isPrefixOf text := List.countP_map

namespace Report

theorem bulletStart_prefix_bullet (key : String) : bulletStart.isPrefixOf (bullet key) = true :=
  List.isPrefixOf_iff_prefix.mpr ((List.prefix_append _ _).trans (List.prefix_append _ _))

/-- No line of a description looks like the line of a key. -/
theorem countP_description (rule : Rule) :
    (rule.description.map descriptionLine).countP (fun text => bulletStart.isPrefixOf text) = 0 := by
  cases rule <;> decide +kernel

theorem countP_ruleLines (rule : Rule) (keys : List String) :
    (ruleLines rule keys).countP (fun text => bulletStart.isPrefixOf text) = keys.length := by
  rw [ruleLines, List.countP_append, countP_description, Nat.zero_add, List.countP_map]
  exact List.countP_eq_length.mpr fun key _ => bulletStart_prefix_bullet key

/-- The block of a file has as many lines of keys as its report has keys. -/
theorem countP_lines (filename : String) (violations : List (Rule × List String)) :
    (lines filename violations).countP (fun text => bulletStart.isPrefixOf text) =
      (violations.flatMap (·.2)).length := by
  -- Neither of the two lines before the rules starts like the line of a key.
  have blank : ¬ bulletStart.isPrefixOf (line []) = true := by decide
  have head : bulletStart.isPrefixOf (line (heading filename)) = false := rfl
  rw [lines, List.countP_cons_of_neg blank, List.countP_cons_of_neg (ne_true_of_eq_false head)]
  induction violations with
  | nil => rfl
  | cons entry rest ih =>
    rw [List.flatMap_cons, List.countP_append, countP_ruleLines, ih, List.flatMap_cons, List.length_append]

end Report

/-! ### The number of violations -/

/-- The number of keys in all buckets after a check of a tree. -/
def Mapping.issueCount (tree : Mapping) : Nat := (Rule.all.flatMap tree.violating).length

theorem flatMap_filter_nonempty {κ α : Type} (entries : List (κ × List α)) :
    (entries.filter fun entry => !entry.2.isEmpty).flatMap (·.2) = entries.flatMap (·.2) := by
  induction entries with
  | nil => rfl
  | cons entry rest ih =>
    obtain ⟨rule, keys⟩ := entry
    cases keys with
    | nil => exact ih
    | cons key more => exact congrArg (key :: more ++ ·) ih

theorem Buckets.length_violations (tree : Mapping) :
    ((ofTree tree).violations.flatMap (·.2)).length = tree.issueCount := by
  rw [violations, flatMap_filter_nonempty, toList, List.flatMap_map]
  rfl

theorem Mapping.issueCount_eq_zero {tree : Mapping} (h : ¬ tree.HasViolation) : tree.issueCount = 0 := by
  refine List.length_eq_zero_iff.mpr (List.eq_nil_iff_forall_not_mem.mpr fun key hkey => h ?_)
  obtain ⟨rule, hrule, hkey⟩ := List.mem_flatMap.mp hkey
  obtain ⟨node, hnode, violates, -⟩ := mem_violating.mp hkey
  exact ⟨node, hnode, rule, hrule, violates⟩

/-! ### What a check logs -/

namespace Validator

theorem acts_skipped (found : List Pluralization) :
    (skipped found).acts = (found.filter fun p => Rule.isExempt p.key).map fun p => .log (.exempt p.key) := by
  induction found with
  | nil => rfl
  | cons p rest ih =>
    rw [skipped, List.foldr_cons, Journal.acts_append, ← skipped, ih, List.filter_cons, Pluralization.journal]
    split <;> rfl

theorem log_skipped (found : List Pluralization) :
    (skipped found).log = (found.filter fun p => Rule.isExempt p.key).map fun p => .exempt p.key := by
  rw [Journal.log, acts_skipped, List.flatMap_map, ← List.flatMap_pure_eq_map]
  rfl

theorem printed_skipped (found : List Pluralization) : (skipped found).printed = [] := by
  rw [Journal.printed, acts_skipped, List.flatMap_map]
  exact List.flatMap_eq_nil_iff.mpr fun _ _ => rfl

theorem bulletCount_skipped (found : List Pluralization) : (skipped found).bulletCount = 0 := by
  rw [Journal.bulletCount, acts_skipped, List.countP_map]
  exact List.countP_eq_zero.mpr fun _ _ => Bool.false_ne_true

end Validator

/-! ### The journal of a file -/

namespace Lint

/-- What is printed about a file with a tree: a block if there is a violation. -/
def blockOf (filename : String) (tree : Mapping) : List Char :=
  if tree.HasViolation then Report.block filename (Buckets.ofTree tree).violations else []

/-- The entry of the log that tells whether the tree of a file has violations. -/
def verdict (filename : String) (tree : Mapping) : LogEntry :=
  if tree.HasViolation then .faulty tree.issueCount filename else .clean filename

/-- The report on a file with a tree. -/
def reportOf (filename : String) (tree : Mapping) : FileReport Rule := ⟨filename, (Buckets.ofTree tree).violations⟩

/-- All that is logged about a file that holds a locale. -/
def fileLog (filename : String) (found : Locale) : List LogEntry :=
  .parsing filename :: .loaded found.name filename ::
    (((found.tree.pluralizations "").filter fun p => Rule.isExempt p.key).map fun p => .exempt p.key) ++
      [verdict filename found.tree]

/-- The line that tells whether the tree of a file has violations, and how many. -/
def verdictLine (filename : String) (tree : Mapping) : Level × String :=
  if tree.HasViolation then (.error, "Found " ++ toString tree.issueCount ++ " issues in " ++ filename)
  else (.info, "No issues found in " ++ filename)

/-- All lines about a file that holds a locale. -/
def fileLines (filename : String) (found : Locale) : List (Level × String) :=
  (.debug, "Parsing " ++ filename) :: (.debug, "Loaded locale " ++ found.name ++ " from " ++ filename) ::
    (((found.tree.pluralizations "").filter fun p => Rule.isExempt p.key).map fun p =>
      (.debug, "Skipping pluralization check for " ++ p.key)) ++ [verdictLine filename found.tree]

theorem shown_verdict (filename : String) (tree : Mapping) : (verdict filename tree).shown = verdictLine filename tree := by
  rw [verdict, verdictLine]
  split <;> rfl

theorem shown_fileLog (filename : String) (found : Locale) :
    (fileLog filename found).map LogEntry.shown = fileLines filename found := by
  rw [fileLog, List.map_append, List.map_cons, List.map_cons, List.map_map, List.map_singleton, shown_verdict]
  rfl

section Outcome
variable (filename : String) (tree : Mapping)

/-- The validator of a file after a check of its tree. -/
def checked : Validator := ⟨filename, some (.ofTree tree)⟩

theorem outcome_checked : outcome (checked filename tree) =
    if tree.HasViolation then
      (checked filename tree).printErrors ++ .entry (.faulty tree.issueCount filename)
    else .entry (.clean filename) := by
  have issues : (checked filename tree).report.issueCount = tree.issueCount := Buckets.length_violations tree
  by_cases h : tree.HasViolation
  · have : (checked filename tree).hasErrors = true := (Buckets.hasErrors_ofTree tree).mpr h
    rw [outcome, if_pos this, if_pos h, issues]
    rfl
  · have : ¬ (checked filename tree).hasErrors = true := mt (Buckets.hasErrors_ofTree tree).mp h
    rw [outcome, if_neg this, if_neg h]
    rfl

theorem printed_outcome : (outcome (checked filename tree)).printed = blockOf filename tree := by
  rw [outcome_checked, blockOf]
  split
  · rw [Journal.printed_append, Journal.printed_entry, List.append_nil, Validator.printErrors, Journal.printed_prints]
    rfl
  · rfl

theorem log_outcome : (outcome (checked filename tree)).log = [verdict filename tree] := by
  rw [outcome_checked, verdict]
  split
  · rw [Journal.log_append, Validator.printErrors, Journal.log_prints]
    rfl
  · rfl

theorem bulletCount_outcome : (outcome (checked filename tree)).bulletCount = tree.issueCount := by
  rw [outcome_checked]
  split
  · rw [Journal.bulletCount_append, Journal.bulletCount_entry, Validator.printErrors, Journal.bulletCount_prints,
      Report.countP_lines]
    exact Buckets.length_violations tree
  · rename_i h
    exact (Mapping.issueCount_eq_zero h).symm

end Outcome

section File
variable {files : Files} {filename : String} {found : Locale} {e : LintError}

theorem file_of_ok (h : readLocale files filename = .ok found) : file files filename =
    ⟨.entry (.parsing filename) ++ (.entry (.loaded found.name filename) ++
      (Validator.skipped (found.tree.pluralizations "") ++ outcome (checked filename found.tree))),
      .ok (reportOf filename found.tree)⟩ := by
  have load : loadTree files filename =
      ⟨.entry (.parsing filename) ++ .entry (.loaded found.name filename), .ok found.tree⟩ := by
    rw [loadTree, h]
    rfl
  rw [file, load]
  have check : ((Validator.ofFilename filename).check found.tree : Run LintError Validator) = _ :=
    Validator.check_eq _ _
  rw [Run.bind_of_ok _ rfl]
  simp only [check]
  show Run.mk (_ ++ (_ ++ (_ ++ Journal.empty))) _ = _
  rw [Journal.append_empty, Journal.append_assoc]
  rfl

theorem file_of_error (h : readLocale files filename = .error e) :
    file files filename = ⟨.entry (.parsing filename), .error e⟩ := by
  rw [file, loadTree, h]
  rfl

theorem printed_file (h : readLocale files filename = .ok found) :
    (file files filename).journal.printed = blockOf filename found.tree := by
  rw [file_of_ok h]
  simp only [Journal.printed_append, Journal.printed_entry, Validator.printed_skipped, printed_outcome, List.nil_append]

theorem log_file (h : readLocale files filename = .ok found) :
    (file files filename).journal.log = fileLog filename found := by
  rw [file_of_ok h]
  simp only [Journal.log_append, Journal.log_entry, Validator.log_skipped, log_outcome, fileLog, List.nil_append,
    List.cons_append]

theorem bulletCount_file (h : readLocale files filename = .ok found) :
    (file files filename).journal.bulletCount = found.tree.issueCount := by
  rw [file_of_ok h]
  simp only [Journal.bulletCount_append, Journal.bulletCount_entry, Validator.bulletCount_skipped, bulletCount_outcome,
    Nat.zero_add]

end File

end Lint

end LocaleLint
