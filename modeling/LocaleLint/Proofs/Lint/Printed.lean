import LocaleLint.Proofs.Lint.Run
import LocaleLint.Proofs.Report.Decoding

/-! # What a run prints

A run prints the reports on its files that have errors, one block after another and nothing else, however it ends.
From the printed text these reports can be read back, so that runs that print the same found the same. -/

namespace LocaleLint

open Text Report

namespace Lint
variable {files : Files} {patterns : List String}

/-- The reports on files that are linted one after another, up to the first that cannot be. -/
def reportsOn (files : Files) : List String → List (FileReport Rule)
  | [] => []
  | name :: rest =>
    match (file files name).result with
    | .ok report => report :: reportsOn files rest
    | .error _ => []

/-- The reports that a run prints: those with errors on the files that it lints. -/
def printedReports (files : Files) (patterns : List String) : List (FileReport Rule) :=
  match (resolve files.find patterns).result with
  | .ok names => (reportsOn files names).filter (·.hasErrors)
  | .error _ => []

/-- What is printed of a report: its block if it has errors. -/
def printedOf (report : FileReport Rule) : List Char :=
  if report.hasErrors = true then block report.filename report.violations else []

/-- A file is printed the block of its report if it can be linted, and nothing if it cannot. -/
theorem printed_of_file (name : String) : (file files name).journal.printed =
    match (file files name).result with
    | .ok report => printedOf report
    | .error _ => [] := by
  cases found : readLocale files name with
  | error e =>
    rw [file_of_error found]
    rfl
  | ok locale =>
    rw [printed_file found, file_of_ok found]
    simp only [printedOf, hasErrors_reportOf, blockOf]
    rfl

theorem printed_forEach (names : List String) :
    (Run.forEach (file files) names).journal.printed = (reportsOn files names).flatMap printedOf := by
  induction names with
  | nil => rfl
  | cons name rest ih =>
    rw [Run.forEach, Run.printed_bind, printed_of_file, reportsOn]
    cases (file files name).result with
    | error e => rfl
    | ok report =>
      -- Collecting the reports prints nothing; if a later file fails, what was printed stays.
      have later : ∀ reports : List (FileReport Rule),
          (pure (report :: reports) : Run LintError (List (FileReport Rule))).journal.printed = [] := fun _ => rfl
      simp only [Run.printed_bind, ih, later, List.flatMap_cons]
      cases (Run.forEach (file files) rest).result <;> rw [List.append_nil]

theorem printed_summary (reports : List (FileReport Rule)) : (summary reports).printed = [] := by
  rw [summary]
  split <;> rfl

theorem flatMap_printedOf (reports : List (FileReport Rule)) : reports.flatMap printedOf =
    (reports.filter (·.hasErrors)).flatMap fun report => block report.filename report.violations := by
  have blocks := flatMap_ite (fun report : FileReport Rule => report.hasErrors = true)
    (fun report => block report.filename report.violations) reports
  simp only [Bool.decide_eq_true] at blocks
  exact blocks

/-- A run prints the blocks of its reports with errors and nothing else. -/
theorem printed_run (files : Files) (patterns : List String) : (run files patterns).journal.printed =
    (printedReports files patterns).flatMap fun report => block report.filename report.violations := by
  have opening : (Run.mapError LintError.file (resolve files.find patterns)).journal.printed = [] :=
    printed_resolveAfter files.find [] patterns
  rw [run, Run.printed_bind, opening, List.nil_append, printedReports, Run.mapError]
  cases (resolve files.find patterns).result with
  | error e => rfl
  | ok names =>
    have starting : (Run.record (.entry (.starting names.length)) : Run LintError Unit).journal.printed = [] := rfl
    have started : (Run.record (.entry (.starting names.length)) : Run LintError Unit).result = .ok () := rfl
    have ending : ∀ reports : List (FileReport Rule),
        (do Run.record (summary reports); return exitCode reports : Run LintError Nat).journal.printed = [] := by
      intro reports
      rw [Run.printed_bind]
      show (summary reports).printed ++ [] = []
      rw [printed_summary, List.append_nil]
    simp only [Except.mapError, Run.printed_bind, starting, started, printed_forEach, ending]
    rw [← flatMap_printedOf, List.nil_append]
    cases (Run.forEach (file files) names).result <;> exact List.append_nil _

/-- The reports with errors that a run comes to can be read from what it prints, if the names of their files and their
    keys have no line feed and no escape character. Two such runs that print the same but for the styling report the
    same violations of the same files in the same order. -/
theorem ofPrinted_run (plain : ∀ report ∈ printedReports files patterns, report.IsPlain) :
    ofPrinted (unstyled (run files patterns).journal.printed) = printedReports files patterns ∧
    ∀ others patterns', (∀ report ∈ printedReports others patterns', report.IsPlain) →
      unstyled (run others patterns').journal.printed = unstyled (run files patterns).journal.printed →
      printedReports others patterns' = printedReports files patterns := by
  have read : ofPrinted (unstyled (run files patterns).journal.printed) = printedReports files patterns := by
    rw [printed_run, ofPrinted_blocks plain]
  refine ⟨read, fun others patterns' plain' same => ?_⟩
  calc printedReports others patterns'
      = ofPrinted (unstyled (run others patterns').journal.printed) := by rw [printed_run, ofPrinted_blocks plain']
    _ = ofPrinted (unstyled (run files patterns).journal.printed) := by rw [same]
    _ = printedReports files patterns := read

/-- The one report of runs that come to the faulty file among others. -/
def oneReport : FileReport Rule := ⟨"a.yml", [(.pluralizationKeys, [""]), (.oneKeys, [""])]⟩

/-- A run to the end and one that ends at a file that is no text print the same report. -/
theorem ofPrinted_run_threeFiles : (∀ report ∈ printedReports threeFiles ["a.yml", "x", "b.yml"], report.IsPlain) ∧
    ofPrinted (unstyled (run threeFiles ["a.yml", "x", "b.yml"]).journal.printed) = [oneReport] ∧
    unstyled (run threeFiles ["a.yml", "c.yml"]).journal.printed =
      unstyled (run threeFiles ["a.yml", "x", "b.yml"]).journal.printed ∧
    printedReports threeFiles ["a.yml", "c.yml"] = printedReports threeFiles ["a.yml", "x", "b.yml"] := by
  have first : printedReports threeFiles ["a.yml", "x", "b.yml"] = [oneReport] := by decide +kernel
  have second : printedReports threeFiles ["a.yml", "c.yml"] = [oneReport] := by decide +kernel
  have one : ∀ report ∈ [oneReport], report.IsPlain :=
    List.forall_mem_singleton.mpr ⟨by decide +kernel, by decide +kernel⟩
  have same : unstyled (run threeFiles ["a.yml", "c.yml"]).journal.printed =
      unstyled (run threeFiles ["a.yml", "x", "b.yml"]).journal.printed := by rw [printed_run, printed_run, first, second]
  obtain ⟨read, determined⟩ := ofPrinted_run (first ▸ one)
  exact ⟨first ▸ one, read.trans first, same, determined threeFiles ["a.yml", "c.yml"] (second ▸ one) same⟩

end Lint

end LocaleLint
