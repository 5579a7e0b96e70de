import LocaleLint.Lint.File
import LocaleLint.Lint.Resolve

/-! # Linting files

All files that the patterns find are linted in order. The exit code tells whether some of them have
errors; a file that cannot be linted ends the run. -/

namespace LocaleLint.Lint

def exitCode (reports : List (FileReport Rule)) : Nat := if reports.any (·.hasErrors) then 1 else 0

/-- What is logged at the end of a run: how many files have errors, if there are any. -/
def summary (reports : List (FileReport Rule)) : Journal :=
  let failed := (reports.filter (·.hasErrors)).length
  if failed = 0 then .empty
  else .entry (.failed failed reports.length)

/-- The run over the files that patterns find, with its exit code. -/
def run (files : Files) (patterns : List String) : Run LintError Nat := do
  let names ← Run.mapError .file (resolve files.find patterns)
  Run.record (.entry (.starting names.length))
  let reports ← Run.forEach (file files) names
  Run.record (summary reports)
  return exitCode reports

end LocaleLint.Lint
