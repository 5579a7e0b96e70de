/-! # File reports

What is wrong with one file: the rules that it violates, each with the dotted keys where it does. -/

namespace LocaleLint

/-- The report on a file, whose rules are named by `κ`. -/
structure FileReport (κ : Type) where
  filename : String
  violations : List (κ × List String)
  deriving DecidableEq, Repr

namespace FileReport

variable {κ : Type}

def hasErrors (report : FileReport κ) : Bool := report.violations.any fun rule => !rule.2.isEmpty

def issueCount (report : FileReport κ) : Nat := (report.violations.flatMap (·.2)).length

end FileReport

end LocaleLint
