import LocaleLint.Journal
import LocaleLint.Report.Printed
import LocaleLint.Rule.Condition

/-! # Validators

A validator collects the violations of one file's tree. It has no buckets before its first check; a
check starts with empty ones, and a single pass adds to those that are there. -/

namespace LocaleLint

/-- The hits of one mapping that tells texts apart by number; an exempt one has none. -/
def Pluralization.hits (p : Pluralization) : List Hit :=
  if Rule.isExempt p.key then [] else (Rule.ofMapping p.mapping).map fun rule => (rule, p.key)

def Translation.hits (t : Translation) : List Hit := (Rule.ofTranslation t).map fun rule => (rule, t.key)

/-- What is logged about one mapping that tells texts apart by number. -/
def Pluralization.journal (p : Pluralization) : Journal :=
  if Rule.isExempt p.key then .entry (.exempt p.key) else .empty

/-- The pass over the mappings of a tree that tell texts apart by number. -/
def Mapping.pluralizationHits (tree : Mapping) : List Hit := (tree.pluralizations "").flatMap Pluralization.hits

/-- The pass over the leaves of a tree. -/
def Mapping.contentHits (tree : Mapping) : List Hit := (tree.translations "").flatMap Translation.hits

structure Validator where
  filename : String
  buckets : Option Buckets

/-- A single pass found a violation before the first check, when there is no bucket for it. -/
inductive ValidatorError where
  | noBuckets
  deriving DecidableEq, Repr

namespace Validator

def ofFilename (filename : String) : Validator := ⟨filename, none⟩

/-- The buckets with more hits in them; without buckets there may be no hits. -/
def addHits (v : Validator) (hits : List Hit) : Except ValidatorError Validator :=
  match v.buckets with
  | some buckets => .ok { v with buckets := some (buckets.add hits) }
  | none => if hits.isEmpty then .ok v else .error .noBuckets

/-- What the pass over some mappings logs. -/
def skipped (found : List Pluralization) : Journal := found.foldr (fun p journal => p.journal ++ journal) .empty

/-- The mappings that a pass comes to: all of them, or those up to the first hit that has no bucket. -/
def reached (v : Validator) (found : List Pluralization) : List Pluralization :=
  match v.buckets with
  | some _ => found
  | none => found.takeWhile (·.hits.isEmpty)

def checkPluralizations (v : Validator) (tree : Mapping) : Run ValidatorError Validator :=
  ⟨skipped (v.reached (tree.pluralizations "")), v.addHits tree.pluralizationHits⟩

def checkContent (v : Validator) (tree : Mapping) : Run ValidatorError Validator :=
  .ofExcept (v.addHits tree.contentHits)

/-- Both passes from empty buckets on. No violation can be without a bucket, so a check never fails. -/
def check {ε : Type} (v : Validator) (tree : Mapping) : Run ε Validator :=
  ⟨skipped (tree.pluralizations ""),
    .ok { v with buckets := some ((Buckets.empty.add tree.pluralizationHits).add tree.contentHits) }⟩

/-- All rules with their keys; nothing before the first check. -/
def errors (v : Validator) : List (Rule × List String) := (v.buckets.map Buckets.toList).getD []

def hasErrors (v : Validator) : Bool := (v.buckets.map Buckets.hasErrors).getD false

def report (v : Validator) : FileReport Rule := ⟨v.filename, v.errors.filter fun entry => !entry.2.isEmpty⟩

/-- The printed block of the file, line by line. -/
def printErrors (v : Validator) : Journal := .prints (Report.lines v.filename v.report.violations)

end Validator

end LocaleLint
