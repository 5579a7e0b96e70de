import LocaleLint.Files.Basic
import LocaleLint.Locale.Parse
import LocaleLint.Report.Validator
import LocaleLint.Store.Path
import LocaleLint.Text.Newline

/-! # Linting a file

A file is read, decoded and parsed, and its tree is checked. The block of its violations is printed if
there are any, and the outcome is logged. -/

namespace LocaleLint

/-- Why a file cannot be linted. -/
inductive LintError where
  | locale (cause : LocaleError)
  | file (cause : FileError)
  deriving DecidableEq, Repr

namespace Lint

/-- The locale that bytes hold. -/
def localeOf (filename : String) (bytes : List UInt8) : Except LocaleError Locale :=
  match Text.Utf8.decode bytes with
  | .error failure => .error (.fault filename (.undecodable failure))
  | .ok text => Locale.parse filename (Text.unifyNewlines text)

def readLocale (files : Files) (filename : String) : Except LintError Locale :=
  match files.read (String.ofList (Path.tidy filename.toList)) with
  | .error e => .error (.file e)
  | .ok bytes =>
    match localeOf filename bytes with
    | .error e => .error (.locale e)
    | .ok found => .ok found

def loadTree (files : Files) (filename : String) : Run LintError Mapping := do
  Run.record (.entry (.parsing filename))
  let found ← Run.ofExcept (readLocale files filename)
  Run.record (.entry (.loaded found.name filename))
  return found.tree

/-- What is printed and logged about a file that was checked. -/
def outcome (checked : Validator) : Journal :=
  if checked.hasErrors then checked.printErrors ++ .entry (.faulty checked.report.issueCount checked.filename)
  else .entry (.clean checked.filename)

def file (files : Files) (filename : String) : Run LintError (FileReport Rule) := do
  let tree ← loadTree files filename
  let checked ← (Validator.ofFilename filename).check tree
  Run.record (outcome checked)
  return checked.report

end Lint

end LocaleLint
