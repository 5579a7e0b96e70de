import LocaleLint.Report.Validator

/-! # Sessions with a validator

A validator is called again and again. What a pass finds is recorded hit by hit, and the first hit without a
bucket ends the pass; the validator stays as it was left, and the next call goes on from there. -/

namespace LocaleLint

/-- What a pass comes to at one place of a tree: what it logs there, and the hits. -/
structure Finding where
  journal : Journal
  hits : List Hit

/-- The findings of the pass over the mappings of a tree that tell texts apart by number. -/
def Mapping.pluralizationFindings (tree : Mapping) : List Finding :=
  (tree.pluralizations "").map fun p => ⟨p.journal, p.hits⟩

/-- The findings of the pass over the leaves of a tree, which logs nothing. -/
def Mapping.contentFindings (tree : Mapping) : List Finding := (tree.translations "").map fun t => ⟨.empty, t.hits⟩

namespace Validator

inductive Call where
  | check (tree : Mapping)
  | checkPluralizations (tree : Mapping)
  | checkContent (tree : Mapping)
  | errors
  | report
  | printErrors
  deriving Repr

/-- What a call answers. -/
inductive Answer where
  | verdict (hasErrors : Bool)
  | errors (entries : List (Rule × List String))
  | report (report : FileReport Rule)
  | done
  deriving DecidableEq, Repr

/-- The validator after hits were recorded one by one, up to the first that has no bucket. -/
def record (v : Validator) : List Hit → Validator × Except ValidatorError Unit
  | [] => (v, .ok ())
  | hit :: rest =>
    match v.buckets with
    | none => (v, .error .noBuckets)
    | some buckets => record { v with buckets := some (buckets.add [hit]) } rest

/-- The validator after a pass over findings, up to the first hit that has no bucket. -/
def pass (v : Validator) : List Finding → Validator × Run ValidatorError Unit
  | [] => (v, Run.record .empty)
  | finding :: rest =>
    match v.record finding.hits with
    | (left, .error e) => (left, ⟨finding.journal, .error e⟩)
    | (left, .ok ()) =>
      let (last, run) := pass left rest
      (last, ⟨finding.journal ++ run.journal, run.result⟩)

/-- The validator after a pass, with an answer unless the pass failed. -/
def answering (passed : Validator × Run ValidatorError Unit) (answer : Answer) : Validator × Run ValidatorError Answer :=
  (passed.1, ⟨passed.2.journal, passed.2.result.map fun _ => answer⟩)

/-- The validator after a call, and what the call does and answers. -/
def call (v : Validator) : Call → Validator × Run ValidatorError Answer
  | .check tree =>
    let passed := { v with buckets := some .empty }.pass (tree.pluralizationFindings ++ tree.contentFindings)
    answering passed (.verdict passed.1.hasErrors)
  | .checkPluralizations tree => answering (v.pass tree.pluralizationFindings) .done
  | .checkContent tree => answering (v.pass tree.contentFindings) .done
  | .errors => (v, .ofExcept (.ok (.errors v.errors)))
  | .report => (v, .ofExcept (.ok (.report v.report)))
  | .printErrors => (v, ⟨v.printErrors, .ok .done⟩)

/-- The validator after calls one after another. A call that fails does not keep the next one from being made. -/
def after (v : Validator) (calls : List Call) : Validator := calls.foldl (fun v call => (v.call call).1) v

end Validator

end LocaleLint
